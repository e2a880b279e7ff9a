import Assay.Proofs.Levels
import Assay.Proofs.Ownership
import Assay.Proofs.Rerun
import Mathlib.Data.Bool.AllAny

/-!
# Replay is diagnosis

Replays come after the verdicts and change none of them. With KLEE and SMACK a run that replays
comes to the same suite as one that does not, but for the inputs that are listed; whatever becomes
of a replay is a warning. There are two exceptions, `Run.Stumbles`. A listed input whose path the
operating system cannot follow, since a name on it is too long, ends the run; KLEE's names can grow
so long, for the input's tail is longer than the error file's. And so does a replay whose call the
host does not carry out, as with a null character in a feature: the verifier's call has no features,
and comes through.

`replay_diagnostic` is the main result. It puts two things together: up to its replays the run goes
in step with the other one, and of all that can go wrong with a replay nothing else is not caught,
`Replayer.replayListed_error_iff`.
-/

namespace Assay

open Assay.Action

/-! ## The names of inputs -/

namespace Path

theorem stemOf_append {stem tail : List Char} (hs : stem ≠ []) (ht : tail ≠ []) (hd : '.' ∉ tail) :
    stemOf (stem ++ '.' :: tail) = stem := by
  have htail : (stem ++ '.' :: tail).reverse.takeWhile (· != '.') = tail.reverse := by
    have hplain : ∀ c ∈ tail.reverse, (c != '.') = true := by
      intro c hc
      rw [bne_iff_ne]
      rintro rfl
      exact hd (List.mem_reverse.mp hc)
    rw [List.reverse_append, List.reverse_cons, List.append_assoc,
      List.takeWhile_append_of_pos hplain]
    simp
  have hlength : 0 < stem.length := List.length_pos_iff.mpr hs
  have htake : (stem ++ '.' :: tail).take
      ((stem ++ '.' :: tail).length - tail.reverse.length - 1) = stem := by
    have hcount : (stem ++ '.' :: tail).length - tail.reverse.length - 1 = stem.length := by
      simp only [List.length_append, List.length_cons, List.length_reverse]
      omega
    rw [hcount, List.take_left]
  unfold stemOf
  dsimp only
  rw [htail, htake, if_neg]
  simp [hs, ht]
  omega

theorem stemOf_of_not_mem {cs : List Char} (hd : '.' ∉ cs) : stemOf cs = cs := by
  have hall : cs.reverse.takeWhile (· != '.') = cs.reverse := by
    refine List.takeWhile_eq_self_iff.mpr fun c hc => ?_
    rw [bne_iff_ne]
    rintro rfl
    exact hd (List.mem_reverse.mp hc)
  unfold stemOf
  dsimp only
  rw [hall, if_pos]
  simp

end Path

namespace Counterexample

/-- An error file that tells no kind of error is named as its test is, and so is the input. -/
theorem inputName_error {test : String} (ht : test.toList ≠ []) (hd : '.' ∉ test.toList) :
    inputName (test ++ errorTail) = test ++ inputTail := by
  have htail : errorTail.toList = '.' :: ['e', 'r', 'r'] := by decide
  unfold inputName
  rw [String.toList_append, String.toList_ofList, String.toList_append, htail,
    Path.stemOf_append ht (by decide) (by decide), show "".toList = [] from rfl, List.append_nil,
    Path.stemOf_of_not_mem hd, String.ofList_toList]

end Counterexample

/-! ## A loop of actions -/

namespace Action

variable {ι : Type} {h : Host} {w w' : World}

theorem forM_cons_eq {g : ι → Action Unit} (i : ι) (l : List ι) :
    (i :: l).forM g = g i >>= fun _ => l.forM g := rfl

theorem forM_append_eq {g : ι → Action Unit} (l l' : List ι) :
    (l ++ l').forM g = l.forM g >>= fun _ => l'.forM g := by
  induction l with
  | nil => rfl
  | cons i l ih => rw [List.cons_append, forM_cons_eq, forM_cons_eq, ih, bind_assoc]

/-- A loop fails at its first item that fails. -/
theorem forM_error_iff {g : ι → Action Unit} {l : List ι} :
    (∃ f, ((l.forM g).run h w).1 = .error f) ↔ ∃ before i after w₁, l = before ++ i :: after ∧
      (before.forM g).run h w = (.ok (), w₁) ∧ ∃ f, ((g i).run h w₁).1 = .error f := by
  induction l generalizing w with
  | nil =>
    constructor
    · rintro ⟨f, hf⟩
      cases hf
    · rintro ⟨before, i, after, w₁, hs, -⟩
      exact absurd hs.symm (List.append_ne_nil_of_right_ne_nil _ (List.cons_ne_nil _ _))
  | cons i l ih =>
    rw [forM_cons_eq]
    rcases hi : (g i).run h w with ⟨f | u, w₁⟩
    · rw [bind_of_error hi]
      refine ⟨fun _ => ⟨[], i, l, w, rfl, rfl, f, by rw [hi]⟩, fun _ => ⟨f, rfl⟩⟩
    · rw [bind_of_ok hi, ih]
      constructor
      · rintro ⟨before, j, after, w₂, rfl, hb, hf⟩
        refine ⟨i :: before, j, after, w₂, rfl, ?_, hf⟩
        rw [forM_cons_eq, bind_of_ok hi, hb]
      · rintro ⟨before, j, after, w₂, hs, hb, f, hf⟩
        cases before with
        | nil =>
          obtain ⟨rfl, -⟩ := List.cons_eq_cons.mp hs
          obtain ⟨-, rfl⟩ := pure_ok_iff.mp hb
          rw [hi] at hf
          cases hf
        | cons i' before =>
          obtain ⟨rfl, rfl⟩ := List.cons_eq_cons.mp hs
          rw [forM_cons_eq, bind_of_ok hi] at hb
          exact ⟨before, j, after, w₂, rfl, hb, f, hf⟩

end Action

/-! ## All replays of a run -/

namespace Run

variable {r : Run} {k : Checker} {jobs : List Job} {os : List Outcome} {suite : Suite} {n : Int}
  {h : Host} {w w' : World}

/-- Who replays in a run with this backend. -/
def replayer (r : Run) (k : Checker) : Replayer :=
  ⟨k.backend, r.effective, r.script⟩

/-- The listed inputs with the jobs that they are replayed as, in the order of the replays. -/
def listed (jobs : List Job) (os : List Outcome) : List (Job × String) :=
  os.flatMap fun o =>
    match jobNamed? jobs o.displayName with
    | some job => o.counterexamples.map fun x => (job, x)
    | none => []

/-- Replays one listed input. -/
def replayNext (e : Replayer) (item : Job × String) : Action Unit := do
  let _ ← e.replayListed item.1 item.2
  return ()

theorem replayOutcome_eq (e : Replayer) (job : Job) (o : Outcome) :
    Gaps.none.replay e job o = (o.counterexamples.map fun x => (job, x)).forM (replayNext e) := by
  have hmapM : ∀ l : List String, ((l.mapM (e.replayListed job)) >>= fun _ => pure ()) =
      (l.map fun x => (job, x)).forM (replayNext e) := by
    intro l
    induction l with
    | nil => rfl
    | cons x l ih =>
      rw [List.mapM_cons, List.map_cons, forM_cons_eq, ← ih]
      unfold replayNext
      simp only [bind_assoc, pure_bind]
  rw [Gaps.replay_none, ← hmapM]
  unfold Replayer.replayOutcome
  simp only [bind_assoc, pure_bind]

theorem replayAll_eq (e : Replayer) (jobs : List Job) (os : List Outcome) :
    replayAll .none e jobs os = (listed jobs os).forM (replayNext e) := by
  induction os with
  | nil => rfl
  | cons o os ih =>
    have hlisted : listed jobs (o :: os) =
        (match jobNamed? jobs o.displayName with
          | some job => o.counterexamples.map fun x => (job, x)
          | none => []) ++ listed jobs os := List.flatMap_cons
    have hcons : replayAll .none e jobs (o :: os) =
        (match jobNamed? jobs o.displayName with
          | some job => Gaps.none.replay e job o
          | none => return ()) >>= fun _ => replayAll .none e jobs os := rfl
    rw [hcons, hlisted, forM_append_eq, ih]
    cases jobNamed? jobs o.displayName with
    | none => rfl
    | some job =>
      dsimp only
      rw [replayOutcome_eq]

/-- The replays of a run come to an input at which they end: its path is too long, or its call is not
carried out. -/
inductive Stumbles (r : Run) (jobs : List Job) (h : Host) (w : World) : Prop where
  | stuck {k : Checker} {planned : List Job} {suite : Suite} {w₁ w₂ : World}
    {before after : List (Job × String)} {job : Job} {x : String}
    (verified : (r.verified jobs).run h w = (.ok (k, planned, suite), w₁))
    (listed : listed planned suite.outcomes = before ++ (job, x) :: after)
    (replayed : (before.forM (replayNext (r.replayer k))).run h w₁ = (.ok (), w₂))
    (ends : (r.replayer k).Stuck job h ⟨x, w₂.calls, w₂.disk⟩) : Stumbles r jobs h w

theorem replayNext_error_iff {e : Replayer} (hs : ∀ p ∈ e.script, Script.Begun p)
    (item : Job × String) (h : Host) (w : World) :
    (∃ f, ((replayNext e item).run h w).1 = .error f) ↔
      e.Stuck item.1 h ⟨item.2, w.calls, w.disk⟩ := by
  unfold Replayer.Stuck
  simp only [← Replayer.replayListed_error_iff hs item.1 item.2 h w]
  unfold replayNext
  rcases hr : (e.replayListed item.1 item.2).run h w with ⟨f | t, w₁⟩
  · rw [bind_of_error hr]
    exact ⟨fun _ => ⟨f, rfl⟩, fun _ => ⟨f, rfl⟩⟩
  · rw [bind_of_ok hr]
    constructor
    · rintro ⟨f, hf⟩
      cases hf
    · rintro ⟨f, hf⟩
      cases hf

theorem replays_error_iff (hs : ∀ p ∈ r.script, Script.Begun p) (hn : 0 < r.effective.replay)
    {planned : List Job} {w₁ : World}
    (hv : (r.verified jobs).run h w = (.ok (k, planned, suite), w₁)) :
    (∃ f, ((r.replays k planned suite).run h w₁).1 = .error f) ↔ r.Stumbles jobs h w := by
  have heq : r.replays k planned suite =
      (listed planned suite.outcomes).forM (replayNext (r.replayer k)) := by
    unfold replays
    rw [if_pos hn, replayAll_eq]
    rfl
  have hstep : ∀ item w, (∃ f, ((replayNext (r.replayer k) item).run h w).1 = .error f) ↔
      (r.replayer k).Stuck item.1 h ⟨item.2, w.calls, w.disk⟩ := fun item w =>
    replayNext_error_iff (e := r.replayer k) hs item h w
  rw [heq, forM_error_iff]
  constructor
  · rintro ⟨before, item, after, w₂, hl, hb, hf⟩
    exact .stuck hv hl hb ((hstep item w₂).mp hf)
  · rintro ⟨hv', hl, hb, hends⟩
    rw [hv, Prod.mk.injEq, Except.ok.injEq, Prod.mk.injEq, Prod.mk.injEq] at hv'
    obtain ⟨⟨rfl, rfl, rfl⟩, rfl⟩ := hv'
    exact ⟨_, _, _, _, hl, hb, (hstep _ _).mpr hends⟩

/-- After the verification a run is over, unless a replay stumbles. -/
theorem suite_of_verified (hs : ∀ p ∈ r.script, Script.Begun p) (hn : 0 < r.effective.replay)
    {planned : List Job} {w₁ : World}
    (hv : (r.verified jobs).run h w = (.ok (k, planned, suite), w₁)) :
    (r.Stumbles jobs h w ∧ ∃ f, ((r.suite jobs).run h w).1 = .error f) ∨
      ¬ r.Stumbles jobs h w ∧ ((r.suite jobs).run h w).1 = .ok suite := by
  have hreplays := replays_error_iff hs hn hv
  have hsuite : ((r.suite jobs).run h w).1 =
      ((r.replays k planned suite >>= fun _ => pure suite).run h w₁).1 := by
    rw [suite_eq, bind_of_ok hv]
  rcases hx : (r.replays k planned suite).run h w₁ with ⟨f | u, w₂⟩
  · refine .inl ⟨hreplays.mp ⟨f, by rw [hx]⟩, f, ?_⟩
    rw [hsuite, bind_of_error hx]
  · refine .inr ⟨fun hstumbles => ?_, ?_⟩
    · obtain ⟨f, hf⟩ := hreplays.mpr hstumbles
      rw [hx] at hf
      cases hf
    · rw [hsuite, bind_of_ok hx]
      rfl

theorem listed_eq_nil (jobs : List Job) (ho : ∀ o ∈ os, o.counterexamples = []) :
    listed jobs os = [] := by
  refine List.flatMap_eq_nil_iff.mpr fun o hmem => ?_
  cases jobNamed? jobs o.displayName with
  | none => rfl
  | some job =>
    dsimp only
    rw [ho o hmem, List.map_nil]

/-- What a run comes to up to its replays is what it comes to without any. -/
theorem verified_cases (hb : ∀ b, r.Chooses h b → b = .klee ∨ b = .smack) (jobs : List Job)
    (w : World) (n : Int) :
    (∃ f w₁ w₁', ((r.atLevel n).verified jobs).run h w = (.error f, w₁) ∧
        ((r.atLevel 0).verified jobs).run h w = (.error f, w₁')) ∨
      ∃ t t' w₁ w₁', ((r.atLevel n).verified jobs).run h w = (.ok t, w₁) ∧
        ((r.atLevel 0).verified jobs).run h w = (.ok t', w₁') ∧ r.Chooses h t.1.backend ∧
        Suite.Alike (Outcome.Matches t.1.backend n) t.2.2 t'.2.2 := by
  obtain ⟨halike, -⟩ := tracks_verified (n := n) hb jobs w w rfl
  rcases hr : ((r.atLevel n).verified jobs).run h w with ⟨x, w₁⟩
  rcases hr' : ((r.atLevel 0).verified jobs).run h w with ⟨x', w₁'⟩
  rw [hr, hr'] at halike
  cases halike with
  | ok hq => exact .inr ⟨_, _, w₁, w₁', rfl, rfl, hq⟩
  | error f => exact .inl ⟨f, w₁, w₁', rfl, rfl⟩

/-- SMACK lists no inputs. -/
theorem not_stumbles (hb : ∀ b, r.Chooses h b → b = .smack) (jobs : List Job) (w : World)
    (n : Int) : ¬ (r.atLevel n).Stumbles jobs h w := by
  rintro ⟨hv, hl, -, -⟩
  rcases verified_cases (fun b hc => .inr (hb b hc)) jobs w n with
    ⟨f, w₁, w₁', hr, -⟩ | ⟨t, t', w₁, w₁', hr, -, hc, hm⟩
  · rw [hv] at hr
    cases hr
  · rw [hv] at hr
    cases hr
    have hnothing := hm.nothing (by rw [hb _ hc]; simp)
    rw [listed_eq_nil _ hnothing] at hl
    exact List.append_ne_nil_of_right_ne_nil _ (List.cons_ne_nil _ _) hl.symm

/-- **Replay is diagnosis.** With KLEE or SMACK, and a script that was begun if there is one, a run
that replays raises exactly if the run without replays does, or if it stumbles on a listed input
whose path is too long to be followed or whose call the host does not carry out; SMACK's runs never
do. On a host that heeds what is wrong with calls the latter comes of a null character, as
`Replayer.stops_iff_of_heeds` says. If both return a suite, the suites have
the same backend, the same sums and the same exit code, and their outcomes differ in nothing but the
inputs that they list; at level one they are the same. -/
theorem replay_diagnostic (r : Run) (jobs : List Job) (h : Host) (w : World) (n : Int)
    (hn : 1 ≤ n) (hb : ∀ b, r.Chooses h b → b = .klee ∨ b = .smack)
    (hs : ∀ p ∈ r.script, Script.Begun p) :
    let suiteAt (level : Int) := (((r.atLevel level).suite jobs).run h w).1
    ((∃ f, suiteAt n = .error f) ↔
      (∃ f, suiteAt 0 = .error f) ∨ (r.atLevel n).Stumbles jobs h w) ∧
    ((∀ b, r.Chooses h b → b = .smack) → ¬ (r.atLevel n).Stumbles jobs h w) ∧
    ∀ s s', suiteAt n = .ok s → suiteAt 0 = .ok s' →
      Suite.Alike Outcome.Agrees s s' ∧ s.exitCode = s'.exitCode ∧ (n = 1 → s = s') := by
  intro suiteAt
  rcases verified_cases hb jobs w n with ⟨f, w₁, w₁', hr, hr'⟩ | ⟨t, t', w₁, w₁', hr, hr', hc, hm⟩
  · -- neither run comes to its replays
    have hn : suiteAt n = .error f := by
      show (((r.atLevel n).suite jobs).run h w).1 = _
      rw [suite_eq, bind_of_error hr]
    have h0 : suiteAt 0 = .error f := by
      show (((r.atLevel 0).suite jobs).run h w).1 = _
      rw [suite_eq, bind_of_error hr']
    refine ⟨⟨fun _ => .inl ⟨f, h0⟩, fun _ => ⟨f, hn⟩⟩, fun hb => not_stumbles hb jobs w n, ?_⟩
    intro s s' hs
    rw [hn] at hs
    cases hs
  · have h0 : suiteAt 0 = .ok t'.2.2 := by
      show (((r.atLevel 0).suite jobs).run h w).1 = _
      rw [suite_eq, bind_of_ok hr']
      rfl
    have hlevel : 0 < (r.atLevel n).effective.replay := Int.lt_of_lt_of_le Int.one_pos hn
    rcases suite_of_verified (r := r.atLevel n) hs hlevel hr with ⟨hstumbles, f, hf⟩ | ⟨hclear, hok⟩
    · refine ⟨⟨fun _ => .inr hstumbles, fun _ => ⟨f, hf⟩⟩, fun hb => not_stumbles hb jobs w n, ?_⟩
      intro s s' hs
      rw [show suiteAt n = .error f from hf] at hs
      cases hs
    · have hn' : suiteAt n = .ok t.2.2 := hok
      refine ⟨⟨?_, ?_⟩, fun hb => not_stumbles hb jobs w n, ?_⟩
      · rintro ⟨f, hf⟩
        rw [hn'] at hf
        cases hf
      · rintro (⟨f, hf⟩ | hstumbles)
        · rw [h0] at hf
          cases hf
        · exact absurd hstumbles hclear
      · intro s s' hs hs'
        rw [hn', Except.ok.injEq] at hs
        rw [h0, Except.ok.injEq] at hs'
        subst hs hs'
        refine ⟨hm.mono fun _ _ hq => hq.agrees, hm.exitCode, ?_⟩
        rintro rfl
        exact (hm.mono fun _ _ hq => hq.same (Int.le_refl 1)).eq

/-- A run of jobs one after the other, up to its replays. -/
theorem verify_turns (r : Run) (k : Checker) (jobs : List Job)
    (hseq : Scheduler.isSequential r.effective.jobs jobs = true) (h : Host) (w : World) :
    ∃ os w₁ w₂ w', (r.verify .none k jobs).run h w =
        (.ok (Suite.ofOutcomes k.backendName os), w') ∧ w₁.deeds = w.deeds ∧
      Scheduler.Turns (.ofChecker k r.effective) h w₁ jobs os w₂ ∧ w'.deeds = w₂.deeds := by
  have hnames : Returns (announce jobs) fun _ => True := returns_log _ _ _
  have hprint : ∀ line, Returns (printLine line) fun _ => True := fun _ => returns_print _
  have helapsed : Returns (printElapsed r.effective "Verify") fun _ => True := by
    unfold printElapsed
    split
    · exact hprint _
    · exact .pure trivial
  have hsilent : Keeps World.deeds (printElapsed r.effective "Verify") :=
    .ite (keeps_deeds_print _) (.pure ())
  obtain ⟨_, w₀, hannounce, -⟩ := hnames.run h w
  have hd₀ := (keeps_deeds_log _ _ _ : Keeps World.deeds (announce jobs)).of_run hannounce
  obtain ⟨os, w₁, w₂, hrun, hd₁, ht⟩ := Scheduler.run_sequential
    (Scheduler.proper_ofChecker k r.effective) hseq .absent h w₀
  have hschedule : (r.schedule .none k jobs).run h w₀ =
      (.ok (Suite.ofOutcomes k.backendName os), w₂) := by
    show ((Scheduler.run (.ofChecker k r.effective) .absent jobs r.effective.jobs >>=
      fun t => pure t.1).run h w₀) = _
    rw [bind_of_ok hrun]
    rfl
  obtain ⟨_, w₃, hblank, -⟩ := (hprint "").run h w₂
  obtain ⟨_, w₄, hsummary, -⟩ := (hprint (Suite.ofOutcomes k.backendName os).summary).run h w₃
  obtain ⟨_, w₅, htime, -⟩ := helapsed.run h w₄
  refine ⟨os, w₁, w₂, w₅, ?_, hd₁.trans hd₀, ht, ?_⟩
  · unfold verify
    rw [bind_of_ok hannounce, bind_of_ok hschedule, bind_of_ok hblank, bind_of_ok hsummary,
      bind_of_ok htime]
    rfl
  · rw [hsilent.of_run htime, (keeps_deeds_print _).of_run hsummary,
      (keeps_deeds_print _).of_run hblank]

/-! ### KLEE with a failing test -/

open Checker (sampleKlee sampleJob sampleDisk samplePlace)

/-- A run of KLEE, which has been made beforehand. -/
def sampleRun : Run :=
  ⟨none, [], none, none, Config.standard 1, none, some sampleKlee⟩

theorem chooses_sampleRun {b : Backend} (hc : sampleRun.Chooses h b) : b = .klee := by
  cases hc with
  | prepared hk =>
    cases hk
    rfl
  | named hk => cases hk
  | found hk => cases hk

/-- The failing test is replayed. -/
theorem replay_diagnostic_sample :
    (1 : Int) ≤ 1 ∧ (∀ b, sampleRun.Chooses Checker.failing b → b = .klee ∨ b = .smack) ∧
      (∀ p ∈ sampleRun.script, Script.Begun p) ∧
      let suiteAt (level : Int) := (((sampleRun.atLevel level).suite [sampleJob]).run
        Checker.failing (World.begin sampleDisk)).1
      ((∃ f, suiteAt 1 = .error f) ↔ (∃ f, suiteAt 0 = .error f) ∨
          (sampleRun.atLevel 1).Stumbles [sampleJob] Checker.failing (World.begin sampleDisk)) ∧
        ∀ s s', suiteAt 1 = .ok s → suiteAt 0 = .ok s' → s = s' := by
  have hb : ∀ b, sampleRun.Chooses Checker.failing b → b = .klee ∨ b = .smack :=
    fun b hc => .inl (chooses_sampleRun hc)
  have hs : ∀ p ∈ sampleRun.script, Script.Begun p := fun p hp => by cases hp
  obtain ⟨hraises, -, hsame⟩ := replay_diagnostic sampleRun [sampleJob] Checker.failing
    (World.begin sampleDisk) 1 (Int.le_refl 1) hb hs
  exact ⟨Int.le_refl 1, hb, hs, hraises, fun s s' hr hr' => (hsame s s' hr hr').2.2 rfl⟩

/-- The name of a test, with as many letters as an error file's name has room for. -/
def longTest : String :=
  Counterexample.testHead ++ String.ofList (List.replicate 247 'a')

def longFailure : String :=
  longTest ++ Counterexample.errorTail

def longInput : String :=
  longTest ++ Counterexample.inputTail

/-- The disk after KLEE has left an error file of this name for the sample job. -/
def leftDisk (name : String) : Disk :=
  ⟨[(Disk.keyOf ["kleeout", "t", name], .file []), (Disk.keyOf ["kleeout", "t"], .directory),
    (Disk.keyOf ["kleeout"], .directory)], []⟩

/-- A host on which KLEE leaves such a file. -/
def leaving (name : String) : Host where
  environment := []
  installed _ := true
  processors := 1
  pinned _ := false
  behave _ _ _ := (leftDisk name, .ended 1 [] [] false)

theorem directoryAt?_leftDisk (name : String) :
    (leftDisk name).directoryAt? samplePlace = some ["kleeout", "t"] := by
  have hkleeout : (leftDisk name).directoryAt? Scheduler.kleeDir = some ["kleeout"] :=
    Disk.directoryAt?_child Disk.proper_hereDir (by decide) (by decide)
      (Disk.directoryAt?_hereDir (leftDisk name)) rfl
  exact Disk.directoryAt?_child Scheduler.proper_kleeDir (by decide) (by decide) hkleeout rfl

theorem list_leftDisk (name : String) : (leftDisk name).list samplePlace.text = [name] := by
  rw [Disk.list_of_directoryAt (directoryAt?_leftDisk name)]
  simp [leftDisk, Disk.childNames, Disk.located, Disk.keyOf]

theorem longInput_eq : Counterexample.inputName longFailure = longInput := by
  have hlist : longTest.toList = Counterexample.testHead.toList ++ List.replicate 247 'a' := by
    rw [longTest, String.toList_append, String.toList_ofList]
  refine Counterexample.inputName_error ?_ ?_
  · rw [hlist]
    exact List.append_ne_nil_of_left_ne_nil (by decide) _
  · rw [hlist, List.mem_append, List.mem_replicate, not_or]
    exact ⟨by decide, fun hdot => absurd hdot.2 (by decide)⟩

/-- The launch of the sample job on such a host, at this level. -/
def leavingLaunch (name : String) (level : Int) (w : World) : Checker.Launch where
  output := samplePlace
  words := "klee" :: Klee.arguments (sampleKlee.atLevel level).config sampleJob samplePlace []
  prepared := { w with started := w.started ++ [sampleJob] }
  disk := leftDisk name
  code := 1
  stdout := []
  stderr := []
  overruns := false

variable {name : String} {level : Int}

theorem launches_leaving (name : String) (level : Int) (hw : w.disk = sampleDisk) :
    (sampleKlee.atLevel level).Launches sampleJob (leaving name) w (leavingLaunch name level w) where
  prepared := by
    have hpath : Backend.klee.outputDir (sampleKlee.config.atLevel level) sampleJob =
        ⟨.relative, ["kleeout", "t"]⟩ := by
      show Backend.klee.outputDir sampleKlee.config sampleJob = _
      decide
    exact Checker.prepare_sample hw hpath
  built := rfl
  limited := by
    intro h
    cases h
  ended := rfl

theorem not_aborts_leaving :
    ¬ (sampleKlee.atLevel level).Aborts (leavingLaunch name level w) := by
  have hparts : ∀ part ∈ Counterexample.fixedParts samplePlace, Disk.hasNull part = false := by
    decide
  exact Checker.not_aborts rfl nofun hparts

/-- What is collected is the input of the test that the file belongs to. -/
theorem collects_leaving (hhead : Text.startsWith Counterexample.testHead name = true)
    (htail : Text.endsWith Counterexample.errorTail name = true) {p : Path} :
    Counterexample.Collects .klee (sampleKlee.config.atLevel 1) samplePlace (leftDisk name) p ↔
      p = samplePlace.child (Counterexample.inputName name) := by
  have hlevel : ¬ 1 < (sampleKlee.config.atLevel 1).replay := by decide
  have hinput : Counterexample.HasInput (sampleKlee.config.atLevel 1) samplePlace name p ↔
      p = samplePlace.child (Counterexample.inputName name) := by
    unfold Counterexample.HasInput
    rw [if_neg hlevel, Counterexample.inputOf_child]
    exact ⟨fun hx => hx.2.2, fun hp => ⟨hhead, htail, hp⟩⟩
  unfold Counterexample.Collects
  rw [list_leftDisk, ← hinput]
  constructor
  · rintro ⟨-, -, n, hn, hx⟩
    exact List.mem_singleton.mp hn ▸ hx
  · exact fun hx => ⟨rfl, by decide, name, List.mem_singleton_self _, hx⟩

/-- The run comes to its replays with this input listed. -/
theorem verified_leaving (hhead : Text.startsWith Counterexample.testHead name = true)
    (htail : Text.endsWith Counterexample.errorTail name = true) :
    ∃ suite w', ((sampleRun.atLevel 1).verified [sampleJob]).run (leaving name)
        (World.begin sampleDisk) = (.ok (sampleKlee.atLevel 1, [sampleJob], suite), w') ∧
      w'.disk = leftDisk name ∧ ∀ item, item ∈ listed [sampleJob] suite.outcomes ↔
        item = (sampleJob, (samplePlace.child (Counterexample.inputName name)).text) := by
  have hk : (sampleKlee.atLevel 1).backend.IsVerifier := Checker.sampleKlee_isVerifier
  obtain ⟨os, w₁, w₂, w', hr, hd₁, ht, hd'⟩ := verify_turns (sampleRun.atLevel 1)
    (sampleKlee.atLevel 1) [sampleJob] rfl (leaving name) (World.begin sampleDisk)
  have hw₁ : w₁.disk = sampleDisk := disk_of_deeds hd₁
  cases ht with
  | @next _ w₃ _ _ o _ os hset hd rest =>
    cases rest
    have hl := launches_leaving name 1 hw₁
    obtain ⟨o', ho', -⟩ := Checker.verify_returns hk hl not_aborts_leaving
    obtain ⟨hleft, hfound⟩ := Checker.left_of_launches hk rfl hl
    obtain rfl := hset.returned o' ho'
    refine ⟨Suite.ofOutcomes sampleKlee.backendName [o], w', ?_, ?_, fun item => ?_⟩
    · have hprepare : ((sampleRun.atLevel 1).prepare [sampleJob].length).run (leaving name)
          (World.begin sampleDisk) = (.ok (sampleKlee.atLevel 1), World.begin sampleDisk) := rfl
      have hplan : plan .none (sampleKlee.atLevel 1) [sampleJob] = .ok [sampleJob] := rfl
      unfold verified
      rw [bind_of_ok hprepare, hplan, bind_of_ok (ofExcept_run _ _ _), bind_of_ok hr]
      rfl
    · exact (disk_of_deeds hd').trans ((disk_of_deeds hd).trans hleft)
    · have hlisted : listed [sampleJob] [o] = o.counterexamples.map fun x => (sampleJob, x) := by
        have hname : o.displayName = sampleJob.displayName := hset.displayName
        have hjob : jobNamed? [sampleJob] sampleJob.displayName = some sampleJob := by decide
        unfold listed
        rw [List.flatMap_singleton, hname, hjob]
      show item ∈ listed [sampleJob] [o] ↔ _
      rw [hlisted, List.mem_map]
      constructor
      · rintro ⟨x, hx, rfl⟩
        obtain ⟨p, hp, rfl⟩ := (hfound o ho' x).mp hx
        rw [(collects_leaving hhead htail).mp hp]
      · rintro rfl
        exact ⟨_, (hfound o ho' _).mpr ⟨_, (collects_leaving hhead htail).mpr rfl, rfl⟩, rfl⟩

theorem toList_longInput : longInput.toList =
    Counterexample.testHead.toList ++ List.replicate 247 'a' ++ Counterexample.inputTail.toList := by
  rw [longInput, longTest, String.toList_append, String.toList_append, String.toList_ofList]

theorem mem_longInput {c : Char} (hc : c ∈ longInput.toList) : c ∈ "test.ka".toList := by
  have hhead : ∀ c ∈ Counterexample.testHead.toList, c ∈ "test.ka".toList :=
    List.all_iff_forall_prop.mp (by decide)
  have htail : ∀ c ∈ Counterexample.inputTail.toList, c ∈ "test.ka".toList :=
    List.all_iff_forall_prop.mp (by decide)
  rw [toList_longInput, List.append_assoc, List.mem_append, List.mem_append,
    List.mem_replicate] at hc
  rcases hc with hc | ⟨-, rfl⟩ | hc
  · exact hhead c hc
  · decide
  · exact htail c hc

theorem size_longInput : longInput.utf8ByteSize = 257 := by
  rw [longInput, longTest, String.utf8ByteSize_append, String.utf8ByteSize_append,
    Scheduler.utf8ByteSize_replicate]
  rfl

theorem isPart_longInput : Path.IsPart longInput := by
  have hne : ∀ s : String, s.utf8ByteSize ≠ 257 → longInput ≠ s := by
    rintro s hs rfl
    exact hs size_longInput
  refine ⟨hne _ (by decide), hne _ (by decide), fun hslash => ?_⟩
  exact absurd (mem_longInput hslash) (by decide)

theorem text_longInput : (samplePlace.child longInput).text = "kleeout/t" ++ "/" ++ longInput := by
  have hparent : (samplePlace.child longInput).parent.parts ≠ [] := by
    rw [Path.parent_child]
    exact List.cons_ne_nil _ _
  rw [Path.text_of_parent hparent, Path.parent_child, Path.name_child]
  rfl

/-- The input's name is longer than any that a disk takes. -/
theorem overlong_longInput : Disk.Overlong samplePlace longInput where
  noNull := by
    rw [Disk.hasNull, Bool.eq_false_iff, ne_eq, List.contains_iff_mem, text_longInput,
      String.toList_append, List.mem_append, not_or]
    exact ⟨by decide, fun hnull => absurd (mem_longInput hnull) (by decide)⟩
  path := by
    rw [text_longInput, String.utf8ByteSize_append, size_longInput]
    decide
  long := by
    rw [size_longInput]
    decide

theorem tooLong_longInput (name : String) :
    (leftDisk name).TooLong (samplePlace.child longInput).text := by
  refine ⟨overlong_longInput.noNull, ?_⟩
  refine Disk.find_child_of_overlong Checker.proper_samplePlace isPart_longInput ?_
    overlong_longInput (directoryAt?_leftDisk _) .target
  intro hup
  have hsize := size_longInput
  rw [hup] at hsize
  exact absurd hsize (by decide)

theorem stumbles_leaving :
    (sampleRun.atLevel 1).Stumbles [sampleJob] (leaving longFailure) (World.begin sampleDisk) := by
  have hhead : Text.startsWith Counterexample.testHead longFailure = true := by
    rw [Text.startsWith_iff, longFailure, longTest, String.toList_append, String.toList_append,
      List.append_assoc]
    exact List.prefix_append _ _
  have htail : Text.endsWith Counterexample.errorTail longFailure = true := by
    rw [Text.endsWith_iff, longFailure, String.toList_append]
    exact List.suffix_append _ _
  obtain ⟨suite, w', hr, hdisk, hlisted⟩ := verified_leaving hhead htail
  rw [longInput_eq] at hlisted
  obtain ⟨item, after, hl⟩ :=
    List.exists_cons_of_ne_nil (List.ne_nil_of_mem ((hlisted _).mpr rfl))
  obtain rfl := (hlisted item).mp (hl ▸ List.mem_cons_self)
  have hreplayed : (([] : List (Job × String)).forM
      (replayNext ((sampleRun.atLevel 1).replayer (sampleKlee.atLevel 1)))).run
      (leaving longFailure) w' = (.ok (), w') := rfl
  have hlong : w'.disk.TooLong (Path.parse (samplePlace.child longInput).text).text := by
    rw [hdisk, Path.parse_text (Checker.proper_samplePlace.child isPart_longInput)
      (Path.child_parts_ne_nil _ _)]
    exact tooLong_longInput longFailure
  exact .stuck hr hl hreplayed ⟨_, .untold hlong⟩

/-- **Replay is not only diagnosis**: without replays there is a suite, and with them there is
none, since the operating system takes no name of as many bytes as the input's has. -/
theorem replay_not_diagnostic :
    (∀ b, sampleRun.Chooses (leaving longFailure) b → b = .klee) ∧
      (∃ s, (((sampleRun.atLevel 0).suite [sampleJob]).run (leaving longFailure)
        (World.begin sampleDisk)).1 = .ok s) ∧
      ∃ f, (((sampleRun.atLevel 1).suite [sampleJob]).run (leaving longFailure)
        (World.begin sampleDisk)).1 = .error f := by
  have hklee : ∀ b, sampleRun.Chooses (leaving longFailure) b → b = .klee :=
    fun b hc => chooses_sampleRun hc
  have hstumbles := stumbles_leaving
  obtain @⟨k, planned, suite, w₁, w₂, before, after, job, x, hr, -, -, -⟩ := id hstumbles
  refine ⟨hklee, ?_, ?_⟩
  · rcases verified_cases (fun b hc => .inl (hklee b hc)) [sampleJob] (World.begin sampleDisk) 1 with
      ⟨f, w₃, w₃', hr', -⟩ | ⟨t, t', w₃, w₃', -, hr', -⟩
    · rw [hr] at hr'
      cases hr'
    · refine ⟨t'.2.2, ?_⟩
      rw [suite_eq, bind_of_ok hr']
      rfl
  · have hs : ∀ p ∈ (sampleRun.atLevel 1).script, Script.Begun p := fun p hp => by cases hp
    rcases suite_of_verified hs (by decide) hr with ⟨-, hraises⟩ | ⟨hclear, -⟩
    · exact hraises
    · exact absurd hstumbles hclear

end Run

end Assay
