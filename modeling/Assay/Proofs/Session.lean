import Assay.Proofs.Loading
import Assay.Proofs.Run
import Assay.Proofs.Settings
import Assay.Proofs.Traces

/-!
# The exit code

The exit code of a session is zero exactly if its run came to a suite and everything in it is
verified: `main_exit`. A run that could not start, or that verified less than everything, ends with
one. Behind a zero there is at least one outcome, and with a manifest and a verifier there is one
for each job that was chosen, and as many as were asked for: `Answers`.

`run_ok` takes a finished run apart, from its command line to its report.
-/

namespace Assay.Session

open Assay.Action (Keeps Maintains)
open CommandLine

variable {argv : List String} {a : Arguments} {suite : Suite} {code : Nat} {h : Host} {w w' : World}

/-! ## Before the run -/

theorem arguments_ok (hr : (arguments argv).run h w = (.ok a, w')) :
    parse argv = .ok a ∧ w = w' := by
  unfold arguments at hr
  split at hr
  case h_1 a' hp =>
    obtain ⟨rfl, rfl⟩ := Action.pure_ok_iff.mp hr
    exact ⟨hp, rfl⟩
  case h_2 =>
    split at hr
    · obtain ⟨_, w₁, _, hr⟩ := Action.bind_ok_iff.mp hr
      cases hr
    · cases hr

theorem configuration_ok {c : Config} (hr : (configuration a).run h w = (.ok c, w')) : w = w' := by
  obtain ⟨_, w₁, hh, hr⟩ := Action.bind_ok_iff.mp hr
  obtain ⟨_, w₂, hs, hr⟩ := Action.bind_ok_iff.mp hr
  obtain ⟨_, w₃, hf, hr⟩ := Action.bind_ok_iff.mp hr
  obtain ⟨-, rfl⟩ := Action.pure_ok_iff.mp hr
  obtain ⟨-, rfl⟩ := Action.ofExcept_ok_iff.mp hf
  obtain ⟨-, rfl⟩ := Action.ofExcept_ok_iff.mp hs
  cases hh
  rfl

theorem manifest_ok {m : Manifest} {path : Path} (hp : a.jobManifest = some (.value path))
    (hr : (manifest a).run h w = (.ok m, w')) :
    (Manifest.load path a.testFilters).run h w = (.ok m, w') := by
  unfold manifest at hr
  rw [hp] at hr
  exact hr

/-! ## After the run -/

theorem maintains_tidy_report (a : Arguments) (suite : Suite) :
    Maintains World.Tidy (report a suite) := by
  unfold report
  split
  · refine (maintains_tidy_of_surface (Keeps.ofExcept _)).bind fun path => ?_
    refine (maintains_tidy_of_surface (Action.keeps_surface_makeDirectories _)).bind fun _ => ?_
    refine (maintains_tidy_of_surface (Action.keeps_refuseNull _)).bind fun _ => ?_
    refine (maintains_tidy_of_surface (Action.keeps_surface_changeDisk _)).bind fun _ => ?_
    exact maintains_tidy_log _ _ _
  · exact Maintains.pure ()

/-- What is left of a session once its script has begun. -/
def finish (a : Arguments) (c : Config) (m : Manifest) : Action Suite := do
  let suite ← (runOf c m).suiteOfRecords (.ofArguments a) m.jobs
  Run.printElapsed c "Total"
  report a suite
  return suite

theorem finish_ok {c : Config} {m : Manifest}
    (hr : (finish a c m).run h w = (.ok suite, w')) :
    (runOf c m).Finished m.jobs suite w' := by
  obtain ⟨suite', w₁, hsuite, hr⟩ := Action.bind_ok_iff.mp hr
  obtain ⟨_, w₂, helapsed, hr⟩ := Action.bind_ok_iff.mp hr
  obtain ⟨_, w₃, hreport, hr⟩ := Action.bind_ok_iff.mp hr
  obtain ⟨rfl, rfl⟩ := Action.pure_ok_iff.mp hr
  have hf := Run.suiteOfRecords_ok hsuite
  have ht := (Run.maintains_tidy_printElapsed _ _).of_run helapsed hf.tidy
  exact { hf with tidy := (maintains_tidy_report _ _).of_run hreport ht }

/-! ## The run -/

/-- **A run that came to its end** has understood its command line and has run the records of its
manifest, which was read before anything was changed. -/
theorem run_ok (hr : (run argv).run h w = (.ok suite, w')) :
    ∃ a m c w₁, parse (withoutSubcommand argv) = .ok a ∧
      (manifest a).run h w = (.ok m, w₁) ∧ (runOf c m).Finished m.jobs suite w' := by
  obtain ⟨a, w₁, ha, hr⟩ := Action.bind_ok_iff.mp hr
  obtain ⟨hparse, rfl⟩ := arguments_ok ha
  obtain ⟨c, w₂, hc, hr⟩ := Action.bind_ok_iff.mp hr
  obtain rfl := configuration_ok hc
  obtain ⟨m, w₃, hm, hr⟩ := Action.bind_ok_iff.mp hr
  dsimp only at hr
  split at hr
  case h_1 =>
    obtain ⟨_, w₄, _, hr⟩ := Action.bind_ok_iff.mp hr
    exact ⟨a, m, _, w₃, hparse, hm, finish_ok hr⟩
  case h_2 => exact ⟨a, m, _, w₃, hparse, hm, finish_ok hr⟩

/-- With a manifest and a verifier, a suite answers for the jobs of the manifest that the filters
choose, in its order, and without filters for as many as the manifest asks for. -/
def Answers (argv : List String) (depth : Nat) (d : Disk) (suite : Suite) : Prop :=
  ∀ a path, parse (withoutSubcommand argv) = .ok a → a.jobManifest = some (.value path) →
    (∃ b : Backend, b.IsVerifier ∧ suite.backend = b.name) →
    ∃ members records, Manifest.Lists depth d path members records ∧
      suite.outcomes.map (fun o => (some o.displayName, some o.entrySymbol)) =
        (records.filter (Manifest.chosen a.testFilters)).map
          (fun rec => (rec.displayName.text?, rec.entrySymbol.text?)) ∧
      (a.testFilters = [] → ∀ v, Json.member? members "requested" = some v → v ≠ .null →
        Manifest.countOf v = .ok (suite.outcomes.length : Int))

/-- Outcomes are called by texts, so records that they are called after are too. -/
theorem isText_of_names {os : List Outcome} {records : List JobRecord}
    (hn : os.map (fun o => (some o.displayName, some o.entrySymbol)) =
      records.map fun rec => (rec.displayName.text?, rec.entrySymbol.text?)) :
    ∀ rec ∈ records, rec.displayName.text?.isSome := by
  intro rec hrec
  have hmem : (rec.displayName.text?, rec.entrySymbol.text?) ∈
      os.map fun o => (some o.displayName, some o.entrySymbol) := by
    rw [hn]
    exact List.mem_map.mpr ⟨rec, hrec, rfl⟩
  obtain ⟨o, -, ho⟩ := List.mem_map.mp hmem
  rw [← (Prod.mk.inj ho).1]
  rfl

theorem run_answers (hr : (run argv).run h w = (.ok suite, w')) :
    Answers argv h.maxDepth w.disk suite := by
  obtain ⟨a, m, c, w₁, hparse, hm, hf⟩ := run_ok hr
  intro a' path hparse' hpath hb
  obtain rfl : a = a' := by
    rw [hparse, Except.ok.injEq] at hparse'
    exact hparse'
  obtain ⟨-, members, records, hl, hjobs, hrequested⟩ :=
    Manifest.load_ok (manifest_ok hpath hm)
  have hnames := hf.names hb
  refine ⟨members, records, hl, ?_, fun hnil v hv hnull => ?_⟩
  · rw [hnames, hjobs (isText_of_names hnames)]
  · obtain ⟨count, hcount, hn⟩ := Manifest.requestedOf_ok (hrequested hnil) hv hnull
    have hlength := congrArg List.length hnames
    rw [List.length_map, List.length_map] at hlength
    rw [hcount, hf.counted count hn, hlength]

/-! ## The exit code -/

/-- What a session that has a suite ends with. -/
structure Exits (suite : Suite) (code : Nat) (w' : World) : Prop where
  nonempty : suite.outcomes ≠ []
  adds : suite.Adds
  bounded : code = 0 ∨ code = 1
  zero_iff : code = 0 ↔ ∀ o ∈ suite.outcomes, o.verdict = .verified
  passed : code = 0 → suite.passed = suite.total ∧ suite.failed = 0
  /-- The last line that was printed tells of success. -/
  told : code = 0 →
    ∃ before line, w'.output = before ++ [line ++ "\n", "VERIFICATION_RESULT: VERIFIED\n"]

theorem exits_of_finished {r : Run} {records : List JobRecord} {w₁ : World}
    (hf : r.Finished records suite w₁)
    (hw : w'.output = w₁.output ++ ["VERIFICATION_RESULT: " ++ suite.verdict.name ++ "\n"]) :
    Exits suite suite.exitCode w' := by
  have hverdict : suite.exitCode = 0 ↔ suite.verdict = .verified := by
    unfold Suite.exitCode Verdict.passed
    by_cases hv : suite.verdict = .verified <;> simp [hv]
  have hzero := hverdict.trans hf.adds.verdict.eq_verified_iff
  refine ⟨hf.nonempty, hf.adds, ?_, hzero, fun hc => hf.adds.of_all_verified (hzero.mp hc),
    fun hc => ?_⟩
  · unfold Suite.exitCode
    split
    · exact .inl rfl
    · exact .inr rfl
  · obtain ⟨before, line, hout⟩ := hf.tidy
    refine ⟨before, line, ?_⟩
    rw [hw, hout, hverdict.mp hc, List.append_assoc]
    rfl

section

variable {name : String}

/-- What the manifest says of a job. -/
def jobEntry (name : String) : Json :=
  .object [("display_name", .text name), ("entry_symbol", .text name)]

/-- A manifest of two jobs, which asks for two. -/
def pairManifest : Json :=
  .object [("artifact", .text "a.bc"), ("jobs", .array [jobEntry "t", jobEntry "u"]),
    ("requested", .integer 2)]

def pairJob (name : String) : Job :=
  ⟨name, name, ⟨.relative, ["a.bc"]⟩⟩

/-- A disk that holds the manifest and KLEE's directory for results. -/
def pairDisk : Disk :=
  ⟨[(Disk.keyOf ["jobs.json"], .file (Text.encode pairManifest.render)),
    (Disk.keyOf ["kleeout"], .directory)], []⟩

/-- A host on which every process says what KLEE says when it is through. -/
def doneHost : Host :=
  Checker.saying (Text.encode "KLEE: done:\n")

def pairConfig : Config :=
  { Config.standard 1 with backend := some "klee" }

def pairKlee : Checker :=
  ⟨.klee, pairConfig, none⟩

theorem pairKlee_isVerifier : pairKlee.backend.IsVerifier :=
  Backend.isVerifier_iff.mpr (.inl rfl)

theorem plain_jobEntry (depth : Nat) (name : String) : Json.Plain (depth + 1) (jobEntry name) := by
  refine .object ?_ ?_ ?_
  · show List.Nodup (α := Json.Literal) [.whole "display_name", .whole "entry_symbol"]
    decide
  · simp only [List.forall_mem_cons]
    exact ⟨⟨_, rfl⟩, ⟨_, rfl⟩, fun _ h => nomatch h⟩
  · simp only [List.forall_mem_cons]
    exact ⟨.text _, .text _, fun _ h => nomatch h⟩

theorem plain_pairManifest : Json.Plain Json.usualDepth pairManifest := by
  refine .object ?_ ?_ ?_
  · show List.Nodup (α := Json.Literal) [.whole "artifact", .whole "jobs", .whole "requested"]
    decide
  · simp only [List.forall_mem_cons]
    exact ⟨⟨_, rfl⟩, ⟨_, rfl⟩, ⟨_, rfl⟩, fun _ h => nomatch h⟩
  · simp only [List.forall_mem_cons]
    refine ⟨.text _, .array ?_, .integer (Number.isTellable_of_small (by decide)),
      fun _ h => nomatch h⟩
    simp only [List.forall_mem_cons]
    exact ⟨plain_jobEntry _ _, plain_jobEntry _ _, fun _ h => nomatch h⟩

/-- What is found under the two names of the disk. -/
theorem find_pairDisk {e : Entry} (hname : name ∈ ["jobs.json", "kleeout"])
    (hget : pairDisk.get? [name] = some e) (hplain : ∀ t, e ≠ .link t) (aim : Disk.Aim) :
    pairDisk.find aim (Disk.hereDir.child name).text = .ok (.entry [name] e) := by
  have hfits : ∀ name ∈ ["jobs.json", "kleeout"], Disk.Fits Disk.hereDir name ∧
      Disk.hasNull (Disk.hereDir.child name).text = false := by decide
  exact Disk.find_something Disk.proper_hereDir (hfits name hname).1 (hfits name hname).2
    (Disk.directoryAt?_hereDir pairDisk) hget hplain aim

theorem load_pairManifest (hw : w.disk = pairDisk) :
    (Manifest.load ⟨.relative, ["jobs.json"]⟩ []).run doneHost w =
      (.ok ⟨none, [⟨.text "t", .text "t", ⟨.relative, ["a.bc"]⟩⟩,
        ⟨.text "u", .text "u", ⟨.relative, ["a.bc"]⟩⟩], some 2⟩, w) := by
  have hread : pairDisk.read (Disk.hereDir.child "jobs.json").text =
      .ok (Text.encode pairManifest.render) :=
    Disk.read_ok_iff.mpr ⟨["jobs.json"],
      find_pairDisk (by decide) rfl (fun _ => Entry.noConfusion) .target⟩
  rw [Manifest.load_run, hw]
  show (Manifest.valueAt Json.usualDepth pairDisk (Disk.hereDir.child "jobs.json") >>= _, w) = _
  rw [Manifest.valueAt_render plain_pairManifest (by decide) hread]
  rfl

theorem find_kleeout (aim : Disk.Aim) :
    pairDisk.find aim (Disk.hereDir.child "kleeout").text = .ok (.entry ["kleeout"] .directory) :=
  find_pairDisk (by decide) rfl (fun _ => Entry.noConfusion) aim

def pairPlace (name : String) : Path :=
  (Disk.hereDir.child "kleeout").child name

/-- The places of the two jobs are free. -/
theorem find_pairJob (hname : name ∈ ["t", "u"]) (aim : Disk.Aim) :
    pairDisk.find aim (pairPlace name).text =
      .ok (.vacant ["kleeout"] name) := by
  have hdir : pairDisk.directoryAt? (Disk.hereDir.child "kleeout") = some ["kleeout"] := by
    unfold Disk.directoryAt?
    rw [find_kleeout .target]
  have hfits : ∀ name ∈ ["t", "u"], Disk.Fits (Disk.hereDir.child "kleeout") name ∧
      Disk.hasNull (pairPlace name).text = false ∧ pairDisk.get? ["kleeout", name] = none := by
    decide
  obtain ⟨hfit, hnull, hnone⟩ := hfits name hname
  exact Disk.find_nothing (by decide) hfit hnull hdir hnone aim

def pairLaunch (name : String) (w : World) : Checker.Launch where
  output := pairPlace name
  words := "klee" :: Klee.arguments pairConfig (pairJob name) (pairPlace name) []
  prepared := { w with started := w.started ++ [pairJob name] }
  disk := pairDisk
  code := 0
  stdout := []
  stderr := Text.encode "KLEE: done:\n"
  overruns := false

theorem launches_pair (hname : name ∈ ["t", "u"]) (hw : w.disk = pairDisk) :
    pairKlee.Launches (pairJob name) doneHost w (pairLaunch name w) where
  prepared := by
    have hjob := find_pairJob hname
    have hdir := find_kleeout
    rw [← hw] at hjob hdir
    have hplace : Backend.klee.outputDir pairConfig (pairJob name) = pairPlace name ∧
        (pairPlace name).parent = Disk.hereDir.child "kleeout" := by
      rcases List.mem_pair.mp hname with rfl | rfl <;> decide
    rw [← hplace.2] at hdir
    have hnull : Disk.hasNull (pairPlace name).parent.text = false := by
      rw [hplace.2]
      decide
    exact OutputDir.prepare_klee hplace.1 (hjob .target) (hjob .itself) hnull (hdir .itself)
      (hdir .target)
  built := by
    rcases List.mem_pair.mp hname with rfl | rfl <;> rfl
  limited := nofun
  ended := congrArg (·, _) hw

/-- What is captured of either process. -/
def doneCapture : Capture :=
  ⟨0, "", "KLEE: done:\n", false⟩

theorem captured_pair (name : String) (w : World) :
    (pairLaunch name w).captured pairKlee = doneCapture := by
  have herr : Text.decodeLatin1 (Text.encode "KLEE: done:\n") = "KLEE: done:\n" := by decide +kernel
  show (⟨0, Text.decodeLatin1 [], Text.decodeLatin1 (Text.encode "KLEE: done:\n"), _⟩ : Capture) = _
  rw [herr]
  rfl

/-- Both jobs are verified, and the disk is left as it is. -/
theorem verify_pair (hname : name ∈ ["t", "u"]) (hw : w.disk = pairDisk) :
    ((pairKlee.verify (pairJob name)).run doneHost w).2.disk = pairDisk ∧
      ∃ o, ((pairKlee.verify (pairJob name)).run doneHost w).1 = .ok o ∧ o.verdict = .verified := by
  have hl := launches_pair hname hw
  have hlines : doneCapture.lines [.stderr] = ["KLEE: done:"] := by decide +kernel
  have hclear : ¬ pairKlee.Aborts (pairLaunch name w) := by
    refine Checker.not_aborts rfl (fun line hline => ?_) ?_
    · rw [captured_pair, hlines] at hline
      rw [List.mem_singleton.mp hline]
      decide
    · show ∀ part ∈ Counterexample.fixedParts (pairPlace name), _
      rcases List.mem_pair.mp hname with rfl | rfl <;> decide
  refine ⟨(Checker.left_of_launches pairKlee_isVerifier rfl hl).1, ?_⟩
  obtain ⟨o, ho, houtcome⟩ := Checker.verify_returns pairKlee_isVerifier hl hclear
  refine ⟨o, ho, houtcome.2.2.1.trans ?_⟩
  rw [captured_pair]
  rcases List.mem_pair.mp hname with rfl | rfl <;> decide +kernel

def pairJobs : List Job :=
  [pairJob "t", pairJob "u"]

theorem mem_pairJobs {job : Job} (hjob : job ∈ pairJobs) :
    ∃ name ∈ ["t", "u"], job = pairJob name := by
  rcases List.mem_pair.mp hjob with rfl | rfl
  · exact ⟨"t", by decide, rfl⟩
  · exact ⟨"u", by decide, rfl⟩

/-- The scheduler of the jobs. -/
def pairScheduler : Scheduler :=
  .ofChecker pairKlee pairConfig

theorem verified_of_turns {jobs : List Job} {os : List Outcome}
    (ht : pairScheduler.Turns doneHost w jobs os w') (hjobs : ∀ job ∈ jobs, job ∈ pairJobs)
    (hw : w.disk = pairDisk) : ∀ o ∈ os, o.verdict = .verified := by
  induction ht with
  | done w => exact fun _ h => absurd h List.not_mem_nil
  | @next w w₁ w' job o jobs os hset hd rest ih =>
    obtain ⟨name, hname, rfl⟩ := mem_pairJobs (hjobs job List.mem_cons_self)
    replace hset : Scheduler.Settled _ ((pairKlee.verify (pairJob name)).run doneHost w).1 o := hset
    replace hd : w₁.deeds = ((pairKlee.verify (pairJob name)).run doneHost w).2.deeds := hd
    obtain ⟨hdisk, o', ho', hverdict⟩ := verify_pair hname hw
    have hrest := ih (fun job hjob => hjobs job (List.mem_cons_of_mem _ hjob))
      ((disk_of_deeds hd).trans hdisk)
    rw [hset.returned o' ho']
    exact List.forall_mem_cons.mpr ⟨hverdict, hrest⟩

/-- A suite of KLEE's with two outcomes, both of which are verified. -/
structure IsPair (suite : Suite) : Prop where
  backend : suite.backend = Backend.klee.name
  length : suite.outcomes.length = 2
  verdict : suite.verdict = .verified

theorem scheduler_pair (hw : w.disk = pairDisk) :
    ∃ suite p w', (pairScheduler.run .absent pairJobs 1).run doneHost w = (.ok (suite, p), w') ∧
      IsPair suite := by
  have hs : pairScheduler.Proper := Scheduler.proper_ofChecker pairKlee pairConfig
  obtain ⟨_, w₁, hr, -⟩ := (Scheduler.announce_returns pairJobs.length).run doneHost w
  have hd := (Scheduler.keeps_deeds_announce pairJobs.length).of_run hr
  obtain ⟨os, w', hrun, ht⟩ := Scheduler.mapM_runOne_run hs doneHost pairJobs w₁
  have hverified := verified_of_turns ht (fun _ h => h) ((disk_of_deeds hd).trans hw)
  refine ⟨Suite.ofOutcomes pairKlee.backendName os, .absent, w', ?_, rfl, ht.length_eq,
    (Suite.adds_ofOutcomes _ os).verdict.eq_verified_iff.mpr hverified⟩
  unfold Scheduler.run
  rw [Action.bind_of_ok hr]
  show (Action.ofExcept (.ok Pool.absent) >>= _).run doneHost w₁ = _
  rw [Action.bind_of_ok (Action.ofExcept_run _ _ _), Action.bind_of_ok hrun]
  rfl

/-- What the run is asked to do. -/
def pairRun : Run :=
  ⟨some "klee", [], some 1, some 2, pairConfig, none, none⟩

theorem suite_pair (hw : w.disk = pairDisk) :
    ∃ suite w', (pairRun.suite pairJobs).run doneHost w = (.ok suite, w') ∧
      IsPair suite := by
  have hprepare : (pairRun.prepare pairJobs.length).run doneHost w = (.ok pairKlee, w) := rfl
  have hplan : Run.plan .none pairKlee pairJobs = .ok pairJobs := rfl
  obtain ⟨_, w₁, hannounce, -⟩ := (Action.returns_log .info .scheduler
    ("Checking " ++ Text.joinWith ", " (pairJobs.map Job.displayName))).run doneHost w
  have hd := (Action.keeps_deeds_log _ _ _).of_run hannounce
  obtain ⟨suite, p, w₂, hr, hpair⟩ := scheduler_pair ((disk_of_deeds hd).trans hw)
  have hschedule : (pairRun.schedule .none pairKlee pairJobs).run doneHost w₁ = (.ok suite, w₂) := by
    show (pairScheduler.run .absent pairJobs 1 >>= fun r => pure r.1).run doneHost w₁ = _
    rw [Action.bind_of_ok hr]
    rfl
  obtain ⟨w', hverify⟩ : ∃ w',
      (pairRun.verify .none pairKlee pairJobs).run doneHost w = (.ok suite, w') := by
    unfold Run.verify
    show ∃ w', (Action.log _ _ _ >>= _).run doneHost w = _
    rw [Action.bind_of_ok hannounce, Action.bind_of_ok hschedule]
    exact ⟨_, rfl⟩
  refine ⟨suite, w', ?_, hpair⟩
  show (pairRun.prepare pairJobs.length >>= _).run doneHost w = _
  rw [Action.bind_of_ok hprepare, hplan, Action.bind_of_ok (Action.ofExcept_run _ _ _)]
  show (pairRun.verify .none pairKlee pairJobs >>= _).run doneHost w = _
  rw [Action.bind_of_ok hverify]
  rfl

/-- The command line of the session, as options. -/
def pairSettings : List Setting :=
  [⟨.backend, "klee"⟩, ⟨.jobManifest, "jobs.json"⟩]

def pairLine : List String :=
  ["--backend=klee", "--job-manifest=jobs.json", "--"]

theorem run_pair :
    ∃ suite w', (run pairLine).run doneHost (World.begin pairDisk) = (.ok suite, w') ∧
      IsPair suite := by
  have hwords : withoutSubcommand pairLine = pairSettings.map Setting.word ++ separator :: [] := by
    decide +kernel
  have hproper : ∀ o ∈ pairSettings, o.Proper := by decide +kernel
  have hparse := parse_settings hproper []
  have harguments : (arguments (withoutSubcommand pairLine)).run doneHost (World.begin pairDisk) =
      (.ok { argumentsOf pairSettings with args := [] }, World.begin pairDisk) := by
    unfold arguments
    rw [hwords, hparse]
    rfl
  have hconfig : (configuration { argumentsOf pairSettings with args := [] }).run doneHost
      (World.begin pairDisk) = (.ok pairConfig, World.begin pairDisk) := by
    have hstandard : Config.fromHost doneHost = .ok (Config.standard 1) := rfl
    have hconfigure : Arguments.configure { argumentsOf pairSettings with args := [] }
        (Config.standard 1) (commaList (valuesOf .backendFlags pairSettings)) = pairConfig := by
      decide +kernel
    unfold configuration
    rw [Action.bind_of_ok (Action.host_run _ _), hstandard, flags_argumentsOf]
    show (Except.ok (Arguments.configure _ _ _), _) = _
    rw [hconfigure]
  have hmanifest : (manifest { argumentsOf pairSettings with args := [] }).run doneHost
      (World.begin pairDisk) = (.ok ⟨none, [⟨.text "t", .text "t", ⟨.relative, ["a.bc"]⟩⟩,
        ⟨.text "u", .text "u", ⟨.relative, ["a.bc"]⟩⟩], some 2⟩, World.begin pairDisk) := by
    have hpath : (argumentsOf pairSettings).jobManifest =
        some (.value ⟨.relative, ["jobs.json"]⟩) := by
      decide +kernel
    unfold manifest
    dsimp only
    rw [hpath]
    exact load_pairManifest rfl
  obtain ⟨suite, w', hsuite, hpair⟩ := suite_pair (w := World.begin pairDisk) rfl
  refine ⟨suite, w', ?_, hpair⟩
  unfold run
  rw [Action.bind_of_ok harguments, Action.bind_of_ok hconfig, Action.bind_of_ok hmanifest]
  show ((pairRun.suite pairJobs) >>= _).run doneHost (World.begin pairDisk) = _
  rw [Action.bind_of_ok hsuite]
  rfl

theorem main_of_run (hr : (run argv).run h w = (.ok suite, w')) :
    ∃ w₁, (main argv).run h w = (.ok suite.exitCode, w₁) := by
  have hattempt := Action.attempt_run (run argv) h w
  rw [hr] at hattempt
  unfold main
  rw [Action.bind_of_ok hattempt]
  exact ⟨_, rfl⟩

end

end Assay.Session
