import Assay.Proofs.Diagnosis
import Assay.Proofs.Halves
import Assay.Proofs.Template

/-!
# Backends by name and backends made beforehand

A run gets its backend in two ways: it looks one up by name, or it is handed one that was made
beforehand, with the caller's configuration (`Run.named`, `Run.readyMade`). The two runs do the same
in everything but one thing. The flags of a run replace those of its configuration, and a backend
that was made beforehand never sees them. So the run with such a backend is the run by name without
flags, and it is the run by name with flags if these change no command of a job,
`readyMade_agrees`. Where they do change one they are lost, `readyMade_loses_flags`.

Both runs prepare alike (`prepare_named`, `prepare_readyMade`), and after that only the verification
of the jobs could tell their checkers apart (`carryOut_congr`); that it does not is `verify_congr`.
-/

namespace Assay

open Assay.Action (bind_of_ok bind_of_error)

namespace Action

variable {α β : Type}

theorem mapM_congr {f g : α → Action β} :
    ∀ (l : List α), (∀ a ∈ l, f a = g a) → l.mapM f = l.mapM g
  | [], _ => rfl
  | a :: l, hl => by
    rw [List.mapM_cons, List.mapM_cons, hl a List.mem_cons_self,
      mapM_congr l fun b hb => hl b (List.mem_cons_of_mem a hb)]

end Action

namespace Flag

/-- A flag without braces stands for itself. -/
theorem format_plain (v : Values) {flag : String} (h : ∀ c ∈ flag.toList, isBrace c = false) :
    format v flag = .ok flag := by
  have hsingle : flag.toList.flatMap doubleBrace = flag.toList.flatMap fun c => [c] :=
    List.flatMap_congr fun c hc => by rw [doubleBrace, h c hc]; rfl
  have hdoubled : doubled flag = flag := by
    rw [doubled, hsingle, List.flatMap_singleton', String.ofList_toList]
  have hformat := format_doubled v flag
  rw [hdoubled] at hformat
  exact hformat

end Flag

namespace Scheduler

variable {s s' : Scheduler} {jobs : List Job}

theorem runOne_congr (hn : s.backendName = s'.backendName) (hc : s.config = s'.config) {job : Job}
    (hv : s.verify job = s'.verify job) : s.runOne job = s'.runOne job := by
  have hfault : s.logFault = s'.logFault := by
    funext job f
    unfold logFault
    rw [hn]
  unfold runOne settle progress
  rw [hv, hc, hfault]

/-- A scheduler's work depends on what it does to its jobs. -/
theorem run_congr (hn : s.backendName = s'.backendName) (hc : s.config = s'.config)
    (hv : ∀ job ∈ jobs, s.verify job = s'.verify job) (p : Pool) (workers : Int) :
    s.run p jobs workers = s'.run p jobs workers := by
  have hmap : jobs.mapM s.runOne = jobs.mapM s'.runOne :=
    Action.mapM_congr jobs fun job hj => runOne_congr hn hc (hv job hj)
  unfold run
  rw [hmap, hn]

end Scheduler

namespace Run

variable {r : Run} {b : Backend} {name : String} {jobs : List Job} {h : Host} {w : World}

/-- The run with the backend of this name. -/
def named (r : Run) (name : String) : Run :=
  { r with choice := some name, prepared := none }

/-- The run with this backend, made beforehand with the configuration and the script of the
caller. -/
def readyMade (r : Run) (b : Backend) : Run :=
  { r with choice := none, prepared := some ⟨b, r.config, r.script⟩ }

/-! ## Preparing -/

/-- Whether a run of this many jobs can start with the backend. -/
def accepts (r : Run) (b : Backend) (count : Nat) : Except Fault Unit := do
  r.checkCount count
  (b.validate r.effective).mapError .setup

theorem prepare_readyMade (count : Nat) :
    ((r.readyMade b).prepare count).run h w =
      ((r.accepts b count).map fun _ => ⟨b, r.config, r.script⟩, w) := by
  have hcount : (r.readyMade b).checkCount count = r.checkCount count := rfl
  unfold prepare accepts
  rw [hcount]
  cases r.checkCount count with
  | error f => rfl
  | ok _ =>
    show (Action.ofExcept ((b.validate r.effective).mapError .setup) >>= _).run h w =
      (((b.validate r.effective).mapError Fault.setup).map _, w)
    cases b.validate r.effective <;> rfl

/-- A backend of this name is found, and nothing is told about it. -/
theorem choose_named {c : Config} (hname : Backend.ofName? name = some b)
    (hi : b.isInstalled h = true) : (Selection.choose (some name) c).run h w = (.ok b, w) := by
  have hne : name ≠ "" := by
    rintro rfl
    cases hname
  have hfilter : (some name).filter (fun name => !name.isEmpty) = some name := by
    simp [Option.filter, hne]
  have hnamed : Selection.named h name = .ok b := by
    unfold Selection.named
    rw [hname]
    exact if_pos hi
  unfold Selection.choose
  rw [bind_of_ok (Action.host_run h w), hfilter]
  dsimp only
  rw [hnamed]
  rfl

theorem prepare_named (hname : Backend.ofName? name = some b) (hi : b.isInstalled h = true)
    (count : Nat) :
    ((r.named name).prepare count).run h w =
      ((r.accepts b count).map fun _ => ⟨b, r.effective, r.script⟩, w) := by
  have hcount : (r.named name).checkCount count = r.checkCount count := rfl
  unfold prepare accepts
  rw [hcount]
  cases r.checkCount count with
  | error f => rfl
  | ok _ =>
    show ((Selection.choose (some name) r.effective >>= fun b => _) >>= _).run h w =
      (((b.validate r.effective).mapError Fault.setup).map _, w)
    rw [bind_assoc, bind_of_ok (choose_named hname hi)]
    show ((Action.ofExcept ((b.validate r.effective).mapError .setup) >>= fun _ => _) >>= _).run h w
      = (((b.validate r.effective).mapError Fault.setup).map _, w)
    cases b.validate r.effective <;> rfl

/-! ## Carrying out -/

/-- Once it has its backend, a run reads nothing but its effective configuration and its script. -/
theorem carryOut_eq {r r' : Run} (he : r.effective = r'.effective) (hs : r.script = r'.script)
    (g : Gaps) (k : Checker) (jobs : List Job) : r.carryOut g k jobs = r'.carryOut g k jobs := by
  unfold carryOut verify schedule
  rw [he, hs]

theorem carryOut_congr {k k' : Checker} (hb : k.backend = k'.backend)
    (hv : ∀ job ∈ jobs, k.verify job = k'.verify job) :
    r.carryOut .none k jobs = r.carryOut .none k' jobs := by
  have hname : k.backendName = k'.backendName := congrArg Backend.name hb
  have hschedule : r.schedule .none k jobs = r.schedule .none k' jobs := by
    let s : Scheduler := ⟨k.backendName, k.verify, r.effective⟩
    let s' : Scheduler := ⟨k'.backendName, k'.verify, r.effective⟩
    have hc : s.config = s'.config := rfl
    show (s.run .absent jobs r.effective.jobs >>= fun t => pure t.1) =
      (s'.run .absent jobs r.effective.jobs >>= fun t => pure t.1)
    rw [Scheduler.run_congr hname hc hv]
  unfold carryOut verify
  rw [hschedule, hb]

theorem plan_of_verifier {k : Checker} (hk : k.backend.IsVerifier) (jobs : List Job) :
    plan .none k jobs = if jobs.isEmpty then .error (.setup .noTests) else .ok jobs := by
  have hharness : k.backend.isHarness = false := by
    rcases Backend.isVerifier_iff.mp hk with h | h | h <;> rw [h] <;> rfl
  unfold plan
  rw [hharness, if_neg Bool.false_ne_true]

/-- A run `r'` that starts with this verifier, if it can start, and is like `r` afterwards. -/
theorem suite_run_of_prepare {r' : Run} {k : Checker} {accepted : Except Fault Unit}
    (hk : k.backend.IsVerifier) (he : r'.effective = r.effective) (hs : r'.script = r.script)
    (hp : (r'.prepare jobs.length).run h w = (accepted.map fun _ => k, w)) :
    (r'.suite jobs).run h w = (Action.ofExcept accepted >>= fun _ =>
      if jobs.isEmpty then Action.fail (.setup .noTests) else r.carryOut .none k jobs).run h w := by
  unfold suite suiteWith
  cases accepted with
  | error f => rw [bind_of_error hp, bind_of_error (Action.ofExcept_run _ h w)]
  | ok _ =>
    rw [bind_of_ok hp, bind_of_ok (Action.ofExcept_run _ h w), plan_of_verifier hk]
    split
    · rw [bind_of_error (Action.ofExcept_run _ h w), Action.fail_run]
    · rw [bind_of_ok (Action.ofExcept_run _ h w), carryOut_eq he hs]

/-- The two ways come to the same if they come to the same job by job. -/
theorem readyMade_run (hb : b.IsVerifier) (hname : Backend.ofName? name = some b)
    (hi : b.isInstalled h = true)
    (hv : ∀ job ∈ jobs, Checker.verify ⟨b, r.config, r.script⟩ job =
      Checker.verify ⟨b, r.effective, r.script⟩ job) :
    ((r.readyMade b).suite jobs).run h w = ((r.named name).suite jobs).run h w := by
  have hcarry : r.carryOut .none ⟨b, r.config, r.script⟩ jobs =
      r.carryOut .none ⟨b, r.effective, r.script⟩ jobs := carryOut_congr rfl hv
  have hready : (r.readyMade b).effective = r.effective := rfl
  have hnamed : (r.named name).effective = r.effective := rfl
  rw [suite_run_of_prepare (k := ⟨b, r.config, r.script⟩) hb hready rfl
      (prepare_readyMade jobs.length),
    suite_run_of_prepare (k := ⟨b, r.effective, r.script⟩) hb hnamed rfl
      (prepare_named hname hi jobs.length), hcarry]

/-- **The two ways to a backend.** For every run, a verifier that is installed, and its name: the
run with the verifier made beforehand is the run by name without flags, on every host and world,
to the last line that is printed. With flags the two agree as well if these change no command of a
job. -/
theorem readyMade_agrees (hb : b.IsVerifier) (hname : Backend.ofName? name = some b)
    (hi : b.isInstalled h = true) (r : Run) (jobs : List Job) (w : World) :
    ((r.readyMade b).suite jobs).run h w =
      (({ r with flags := [] }.named name).suite jobs).run h w ∧
    ((∀ job ∈ jobs, b.invocation r.config job (b.outputDir r.config job) =
        b.invocation r.effective job (b.outputDir r.config job)) →
      ((r.readyMade b).suite jobs).run h w = ((r.named name).suite jobs).run h w) := by
  have hagrees : ∀ r : Run, (∀ job ∈ jobs, b.invocation r.config job (b.outputDir r.config job) =
        b.invocation r.effective job (b.outputDir r.config job)) →
      ((r.readyMade b).suite jobs).run h w = ((r.named name).suite jobs).run h w := by
    intro r hc
    refine readyMade_run hb hname hi fun job hj => ?_
    exact Checker.verify_congr hb ⟨rfl, hc job hj, rfl⟩ rfl rfl
  refine ⟨?_, hagrees r⟩
  have hflags : (r.readyMade b).suite jobs = ({ r with flags := [] }.readyMade b).suite jobs := rfl
  rw [hflags]
  exact hagrees { r with flags := [] } fun job _ => rfl

open Checker (sampleJob sampleDisk samplePlace)

/-- KLEE with these flags. -/
def flaggedKlee (flags : List String) : Checker :=
  ⟨.klee, { Config.standard 1 with backendFlags := flags }, none⟩

/-- A run whose flags limit KLEE's time. -/
def hurriedRun : Run :=
  ⟨none, ["--max-time=5"], none, none, Config.standard 1, none, none⟩

/-- A host on which KLEE ends only if its time is limited. -/
def heeding : Host where
  environment := []
  installed := fun _ => true
  processors := 1
  pinned := fun _ => false
  behave := fun _ call disk => (disk, .ended 0 []
    (if "--max-time=5" ∈ call.command then Text.encode "KLEE: done:\n" else []) false)

theorem readyMade_agrees_sample :
    Backend.klee.IsVerifier ∧ Backend.ofName? "KLEE" = some .klee ∧
      Backend.klee.isInstalled heeding = true ∧
      let r : Run := { hurriedRun with
        config := (flaggedKlee ["--max-time=5"]).config
        workers := some 3 }
      ((r.readyMade .klee).suite [sampleJob]).run heeding (World.begin sampleDisk) =
        ((r.named "KLEE").suite [sampleJob]).run heeding (World.begin sampleDisk) := by
  have hb : Backend.klee.IsVerifier := Backend.isVerifier_iff.mpr (.inl rfl)
  have hname : Backend.ofName? "KLEE" = some .klee := by decide +kernel
  refine ⟨hb, hname, rfl, ?_⟩
  exact (readyMade_agrees hb hname rfl _ [sampleJob] _).2 fun job _ => rfl

/-! ### Flags that are lost -/

variable {flags : List String} {v : Verdict}

/-- The command of the sample job with these flags. -/
def flaggedWords (flags : List String) : List String :=
  "klee" :: Klee.arguments (Config.standard 1) sampleJob samplePlace flags

/-- The launch of the sample job with these flags. -/
def heedingLaunch (flags : List String) (w : World) : Checker.Launch where
  output := samplePlace
  words := flaggedWords flags
  prepared := { w with started := w.started ++ [sampleJob] }
  disk := sampleDisk
  code := 0
  stdout := []
  stderr := if "--max-time=5" ∈ flaggedWords flags then Text.encode "KLEE: done:\n" else []
  overruns := false

/-- What is captured of it. -/
def heard (flags : List String) : Capture :=
  ((flaggedKlee flags).command (flaggedWords flags)).capture 0 []
    (if "--max-time=5" ∈ flaggedWords flags then Text.encode "KLEE: done:\n" else []) false

theorem launches_heeding (hw : w.disk = sampleDisk)
    (hbuilt : Backend.klee.invocation (flaggedKlee flags).config sampleJob samplePlace =
      .ok (flaggedWords flags)) :
    (flaggedKlee flags).Launches sampleJob heeding w (heedingLaunch flags w) where
  prepared := by
    have hpath : Backend.klee.outputDir (flaggedKlee flags).config sampleJob =
        ⟨.relative, ["kleeout", "t"]⟩ := by
      show Backend.klee.outputDir (Config.standard 1) sampleJob = _
      decide
    exact Checker.prepare_sample hw hpath
  built := hbuilt
  limited := nofun
  ended := by
    rw [show (heedingLaunch flags w).prepared.disk = sampleDisk from hw]
    rfl

theorem verify_heeding (hw : w.disk = sampleDisk)
    (hbuilt : Backend.klee.invocation (flaggedKlee flags).config sampleJob samplePlace =
      .ok (flaggedWords flags))
    (hplain : ∀ line ∈ (heard flags).lines [.stderr], Statistics.reported? line = none)
    (hv : ((flaggedKlee flags).judgement (heard flags) sampleJob.displayName).1 = v) :
    ∃ o, (((flaggedKlee flags).verify sampleJob).run heeding w).1 = .ok o ∧ o.verdict = v := by
  have hklee : (flaggedKlee flags).backend.IsVerifier := Backend.isVerifier_iff.mpr (.inl rfl)
  have hparts : ∀ part ∈ Counterexample.fixedParts samplePlace, Disk.hasNull part = false := by
    decide
  obtain ⟨o, ho, -, -, hverdict, -⟩ :=
    Checker.verify_returns hklee (launches_heeding hw hbuilt)
      (Checker.not_aborts rfl hplain hparts)
  exact ⟨o, ho, hverdict.trans hv⟩

/-- The verdict on a run of one job, without replays, is the one on its output. -/
theorem carryOut_one {k : Checker} {job : Job} {v : Verdict} (hreplay : r.effective.replay = 0)
    (hv : ∀ w', w'.deeds = w.deeds →
      ∃ o, ((k.verify job).run h w').1 = .ok o ∧ o.verdict = v) :
    ∃ s w', (r.carryOut .none k [job]).run h w = (.ok s, w') ∧
      s.outcomes.map Outcome.verdict = [v] := by
  have hseq : Scheduler.isSequential r.effective.jobs [job] = true :=
    Bool.or_eq_true_iff.mpr (.inr rfl)
  obtain ⟨os, w₁, w₂, w', hr, hd, ht, -⟩ := verify_turns r k [job] hseq h w
  obtain ⟨o', ho', hverdict⟩ := hv w₁ hd
  cases ht with
  | @next _ w₃ _ _ o _ os hset hd rest =>
    cases rest
    obtain rfl := hset.returned o' ho'
    refine ⟨Suite.ofOutcomes k.backendName [o], w', ?_, congrArg (fun v => [v]) hverdict⟩
    unfold carryOut
    rw [bind_of_ok hr, hreplay, if_neg (by decide)]
    rfl

/-- **Flags that are lost.** By name the run limits KLEE's time and is verified. With the same
backend, made beforehand, it does not, and nothing can be said about the job. -/
theorem readyMade_loses_flags :
    Backend.klee.IsVerifier ∧ Backend.ofName? "klee" = some .klee ∧
      Backend.klee.isInstalled heeding = true ∧
      ∃ s s' w w', ((hurriedRun.named "klee").suite [sampleJob]).run heeding
          (World.begin sampleDisk) = (.ok s, w) ∧
        ((hurriedRun.readyMade .klee).suite [sampleJob]).run heeding
          (World.begin sampleDisk) = (.ok s', w') ∧
        s.outcomes.map Outcome.verdict = [.verified] ∧
        s'.outcomes.map Outcome.verdict = [.unknown] := by
  have hklee : Backend.klee.IsVerifier := Backend.isVerifier_iff.mpr (.inl rfl)
  have hname : Backend.ofName? "klee" = some .klee := by decide +kernel
  have hplain : ∀ line ∈ (heard ["--max-time=5"]).lines [.stderr],
      Statistics.reported? line = none := by decide +kernel
  have hsilent : ∀ line ∈ (heard []).lines [.stderr], Statistics.reported? line = none := by
    decide +kernel
  have hflag : Backend.klee.invocation (flaggedKlee ["--max-time=5"]).config sampleJob samplePlace =
      .ok (flaggedWords ["--max-time=5"]) := by
    have hbraces : ∀ c ∈ "--max-time=5".toList, Flag.isBrace c = false := by
      simp [Flag.isBrace, Flag.openBrace, Flag.closeBrace]
    have hformat : Flag.format ⟨"t", "t.bc", samplePlace.text⟩ "--max-time=5" =
        .ok "--max-time=5" := Flag.format_plain _ hbraces
    have hflags : Backend.userFlags (flaggedKlee ["--max-time=5"]).config sampleJob samplePlace =
        .ok ["--max-time=5"] := by
      show ["--max-time=5"].mapM (Flag.format ⟨"t", "t.bc", samplePlace.text⟩) = _
      rw [List.mapM_cons, hformat]
      rfl
    unfold Backend.invocation
    rw [hflags]
    rfl
  obtain ⟨s, w, hs, hverified⟩ := carryOut_one (r := hurriedRun) (h := heeding)
    (k := flaggedKlee ["--max-time=5"]) (w := World.begin sampleDisk) (v := .verified) rfl
    fun w' hw => verify_heeding (disk_of_deeds hw) hflag hplain (by decide +kernel)
  obtain ⟨s', w', hs', hunknown⟩ := carryOut_one (r := hurriedRun) (h := heeding)
    (k := flaggedKlee []) (w := World.begin sampleDisk) (v := .unknown) rfl
    fun w' hw => verify_heeding (disk_of_deeds hw) rfl hsilent (by decide +kernel)
  have hready : (hurriedRun.readyMade .klee).effective = hurriedRun.effective := rfl
  have hnamed : (hurriedRun.named "klee").effective = hurriedRun.effective := rfl
  refine ⟨hklee, hname, rfl, s, s', w, w', ?_, ?_, hverified, hunknown⟩
  · rw [suite_run_of_prepare hklee hnamed rfl (prepare_named hname rfl [sampleJob].length)]
    exact hs
  · rw [suite_run_of_prepare (k := flaggedKlee []) hklee hready rfl
      (prepare_readyMade [sampleJob].length)]
    exact hs'

end Run

end Assay
