import Assay.Proofs.Schedule
import Assay.Proofs.Turn

/-!
# Counterexamples belong to their jobs

When jobs have been verified one after the other, a counterexample of an outcome is a file that the
process of that very job has made, and it is as the process has left it: `run_owned`. This takes
that no job after it has its place at the file or above it, `Spares`. Nothing keeps jobs from that.
Their names may be the same, or lead to one place, or the one may lead into the other, and the file
is then taken away while the outcome still lists it: `run_not_owned`.
-/

namespace Assay

namespace Checker

variable {k : Checker} {g : Footing} {job : Job} {l : Launch} {d d' : Disk} {x : String}
  {names : List String}

open Assay.Path (Down)

/-- The place of the job is neither the file nor above it. -/
def Spares (k : Checker) (job : Job) (x : String) : Prop :=
  ¬ (k.backend.outputDir k.config job).parts <+: (Path.parse x).parts

/-- A launch still owns the file when another job, which spares the file, has had its turn. -/
theorem Launch.Owns.kept (ho : l.Owns d x) (hk : k.backend.IsVerifier)
    (hc : k.config.manifestPath.Proper) (hout : l.output = k.below names) (hn : Down names)
    (hj : Checker.Descends g job d) (hspares : k.Spares job x) (hs : k.Stays g job d d') :
    l.Owns d' x := by
  obtain ⟨name, hname, hup, rfl, loc, content, hnew, hfile, hfound⟩ := ho
  refine ⟨name, hname, hup, rfl, loc, content, hnew, hfile, ?_⟩
  rw [hout, child_below] at hspares hfound ⊢
  have hdown : Down (names ++ [name]) := hn.append (.singleton hname hup)
  refine hs.files _ hdown (fun hbelow => hspares ?_) loc content hfound
  rw [outputDir_below hk hj.relative,
    Path.parse_text (proper_below hk hc hdown) (List.append_ne_nil_of_right_ne_nil _ nofun)]
  exact (List.prefix_append_right_inj _).mpr (List.cons_prefix_cons.mpr ⟨rfl, hbelow⟩)

end Checker

namespace Scheduler

variable {s : Scheduler} {k : Checker} {c : Config} {h : Host} {g : Checker.Footing}
  {w w' w₁ : World} {job : Job} {jobs js : List Job} {o : Outcome} {os : List Outcome} {d d' : Disk}

/-- One more turn. -/
theorem Turns.concat (ht : Turns s h w js os w')
    (hset : Settled job ((s.verify job).run h w').1 o)
    (hd : w₁.deeds = ((s.verify job).run h w').2.deeds) :
    Turns s h w (js ++ [job]) (os ++ [o]) w₁ := by
  induction ht with
  | done w => exact .next hset hd (.done w₁)
  | next hset' hd' rest ih => exact .next hset' hd' (ih hset hd)

/-- The file belongs to the job, which was taken up after the jobs `done` with these outcomes: the
process of the job has made it, and it is as the process has left it. -/
def Belongs (k : Checker) (c : Config) (h : Host) (w : World) (done : List Job)
    (before : List Outcome) (job : Job) (d : Disk) (x : String) : Prop :=
  ∃ w₀ w₁ l, w₀.deeds = w.deeds ∧ Turns (ofChecker k c) h w₀ done before w₁ ∧
    k.Launches job h w₁ l ∧ l.Owns d x

/-- Every counterexample that all later jobs spare belongs to the job whose outcome lists it. -/
def Owned (k : Checker) (c : Config) (h : Host) (w : World) (jobs : List Job) (os : List Outcome)
    (d : Disk) : Prop :=
  ∀ done job rest before o after, jobs = done ++ job :: rest → os = before ++ o :: after →
    done.length = before.length → ∀ x ∈ o.counterexamples, (∀ later ∈ rest, k.Spares later x) →
      Belongs k c h w done before job d x

theorem Owned.concat (hl : os.length = js.length) (ho : Owned k c h w js os d)
    (hkeeps : ∀ done job', job' ∈ js → ∀ before x, k.Spares job x →
      Belongs k c h w done before job' d x → Belongs k c h w done before job' d' x)
    (hnew : ∀ x ∈ o.counterexamples, Belongs k c h w js os job d' x) :
    Owned k c h w (js ++ [job]) (os ++ [o]) d' := by
  intro done job' rest before o' after hjs hos hlength x hx hspares
  have hcount := congrArg List.length hjs
  have hcount' := congrArg List.length hos
  simp only [List.length_append, List.length_cons, List.length_nil] at hcount hcount'
  rcases List.eq_nil_or_concat after with rfl | ⟨after, last, rfl⟩
  · obtain ⟨rfl, hlast⟩ := List.append_inj' hos rfl
    obtain ⟨rfl, hjob⟩ := List.append_inj hjs (by omega)
    cases hlast
    cases hjob
    exact hnew x hx
  · obtain ⟨rest, lastJob, rfl⟩ := (List.eq_nil_or_concat rest).resolve_left fun hnil => by
      rw [hnil] at hcount
      simp only [List.concat_eq_append, List.length_append, List.length_cons, List.length_nil]
        at hcount hcount'
      omega
    rw [List.concat_eq_append, ← List.cons_append, ← List.append_assoc] at hjs hos
    rw [List.concat_eq_append] at hspares
    obtain ⟨rfl, hlastJob⟩ := List.append_inj' hjs rfl
    obtain ⟨rfl, -⟩ := List.append_inj' hos rfl
    cases hlastJob
    refine hkeeps done job' (by simp) before x (hspares job (by simp)) ?_
    exact ho done job' rest before o' after rfl rfl hlength x hx fun later hlater =>
      hspares later (List.mem_append_left _ hlater)

/-- Jobs one after the other, each with its turn. -/
theorem run_sequential (hs : s.Proper) {workers : Int} (hseq : isSequential workers jobs = true)
    (p : Pool) (h : Host) (w : World) :
    ∃ os w₁ w', (s.run p jobs workers).run h w = (.ok (Suite.ofOutcomes s.backendName os, p), w') ∧
      w₁.deeds = w.deeds ∧ Turns s h w₁ jobs os w' := by
  obtain ⟨_, w₁, hr, -⟩ := (announce_returns jobs.length).run h w
  have hpool : poolFor p workers jobs = .ok p := if_pos hseq
  obtain ⟨os, w', hrun, ht⟩ := mapM_runOne_run hs h jobs w₁
  refine ⟨os, w₁, w', ?_, (keeps_deeds_announce jobs.length).of_run hr, ht⟩
  unfold run
  rw [Action.bind_of_ok hr, hpool, Action.bind_of_ok (Action.ofExcept_run _ h w₁),
    Action.bind_of_ok hrun]
  rfl

section Run

variable (hk : k.backend.IsVerifier) (hc : k.config.manifestPath.Proper)
  (hdescends : ∀ job ∈ jobs, Checker.Descends g job w.disk)
  (horderly : ∀ job ∈ jobs, ∀ words,
    k.backend.invocation k.config job (k.backend.outputDir k.config job) = .ok words →
      Orderly k.config h (k.command words).call (k.backend.outputDir k.config job))

include hk hc hdescends horderly

/-- **One turn**: what has belonged to its job still does if the turn's job spares it, and the
counterexamples of the turn belong to its job. -/
theorem owned_turn {w₀ : World} (hd₀ : w₀.deeds = w.deeds)
    (ht : Turns (ofChecker k c) h w₀ js os w₁) (hjs : ∀ job ∈ js, job ∈ jobs) (hjob : job ∈ jobs)
    (hhere : w₁.disk.here = w.disk.here) (hg : k.Grounds g w₁.disk)
    (ho : Owned k c h w js os w₁.disk) (hset : Settled job ((k.verify job).run h w₁).1 o) :
    k.Stays g job w₁.disk ((k.verify job).run h w₁).2.disk ∧
      Owned k c h w (js ++ [job]) (os ++ [o]) ((k.verify job).run h w₁).2.disk := by
  have hj : Checker.Descends g job w₁.disk :=
    ⟨(hdescends job hjob).relative, (hdescends job hjob).up, hhere ▸ (hdescends job hjob).home⟩
  have hleft := Checker.leaves_verify hk hc job h w₁
  have hstays := Checker.stays_of_leaves hk hc hg hj (horderly job hjob) hleft
  refine ⟨hstays, ho.concat ht.length_eq ?_ fun x hx => ?_⟩
  · rintro done job' hjob' before x hspares ⟨w₂, w₃, l, hd₂, ht', hl, howns⟩
    have hj' := hdescends job' (hjs job' hjob')
    exact ⟨w₂, w₃, l, hd₂, ht', hl, howns.kept hk hc
      (hl.output.trans (Checker.outputDir_below hk hj'.relative)) hj'.down hj hspares hstays⟩
  · refine ⟨w₀, w₁, ?_⟩
    generalize ((k.verify job).run h w₁).1 = r at hset hleft
    generalize ((k.verify job).run h w₁).2.disk = d' at hleft
    have hreturned : ∃ o', r = .ok o' := by
      cases r with
      | ok o' => exact ⟨o', rfl⟩
      | error f =>
        rw [hset.raised f rfl] at hx
        cases hx
    obtain ⟨o', rfl⟩ := hreturned
    rw [hset.returned o' rfl] at hx
    cases hleft with
    | @ended l _ _ hl hr hfound =>
      obtain ⟨p, hp, rfl⟩ := (hfound o' rfl x).mp hx
      exact ⟨l, hd₀, ht, hl, Checker.owns_of_recorded hk hc hg hj (horderly job hjob) hl hr hp⟩

/-- **A run**: by induction on the turns that are left. -/
theorem owned_turns {left : List Job} (ht : Turns (ofChecker k c) h w₁ left os w') :
    ∀ done before w₀, jobs = done ++ left → w₀.deeds = w.deeds →
      Turns (ofChecker k c) h w₀ done before w₁ → w₁.disk.here = w.disk.here →
      k.Grounds g w₁.disk → Owned k c h w done before w₁.disk →
      Owned k c h w jobs (before ++ os) w'.disk := by
  induction ht with
  | done w₁ =>
    intro done before w₀ hjobs _ _ _ _ ho
    rw [List.append_nil] at hjobs ⊢
    rwa [hjobs]
  | @next w₁ w₂ w' job o left os hset hd rest ih =>
    intro done before w₀ hjobs hw₀ hbefore hhere hg ho
    have hjob : job ∈ jobs := hjobs ▸ List.mem_append_right _ List.mem_cons_self
    have hdone : ∀ job ∈ done, job ∈ jobs := fun j hj => hjobs ▸ List.mem_append_left _ hj
    obtain ⟨hstays, ho'⟩ := owned_turn hk hc hdescends horderly hw₀ hbefore hdone hjob hhere hg ho
      hset
    have hdisk : w₂.disk = ((k.verify job).run h w₁).2.disk := disk_of_deeds hd
    rw [← hdisk] at hstays ho'
    have hrest := ih (done ++ [job]) (before ++ [o]) w₀ (by rw [hjobs, List.append_assoc]; rfl) hw₀
      (hbefore.concat hset hd) (hstays.here.trans hhere) hstays.grounds ho'
    rwa [List.append_assoc] at hrest

/-- **Counterexamples belong to their jobs** unless a later job clears them away. -/
theorem run_owned (hg : k.Grounds g w.disk) {workers : Int}
    (hseq : isSequential workers jobs = true) (p : Pool) :
    ∃ suite w', ((ofChecker k c).run p jobs workers).run h w = (.ok (suite, p), w') ∧
      suite.outcomes.length = jobs.length ∧ Owned k c h w jobs suite.outcomes w'.disk := by
  obtain ⟨os, w₁, w', hrun, hdeeds, ht⟩ := run_sequential (proper_ofChecker k c) hseq p h w
  have hdisk := disk_of_deeds hdeeds
  have hnone : Owned k c h w [] [] w₁.disk := by
    intro done job rest _ _ _ hjobs
    exact absurd hjobs.symm (List.append_ne_nil_of_right_ne_nil _ (List.cons_ne_nil _ _))
  refine ⟨_, w', hrun, ht.length_eq, owned_turns hk hc hdescends horderly ht [] [] w₁ rfl hdeeds
    (.done w₁) (by rw [hdisk]) ?_ hnone⟩
  rwa [hdisk]

end Run

end Scheduler

/-! ### A failing test -/

namespace Checker

open Disk (failureName failureInput)

variable {k : Checker} {d : Disk} {w : World}

/-- The place of the sample job. -/
def samplePlace : Path :=
  Scheduler.kleeDir.child "t"

/-- KLEE's process for the sample job. -/
def sampleCall : Call :=
  (sampleKlee.command (sampleLaunch []).words).call

/-- A host on which KLEE finds a failing test for the sample job, and none for other jobs. -/
def failing : Host where
  environment := []
  installed _ := true
  processors := 1
  pinned _ := false
  behave _ call d := (if call = sampleCall then d.failAt samplePlace else d, .ended 1 [] [] false)

theorem proper_samplePlace : samplePlace.Proper :=
  Scheduler.proper_kleeDir.child (by decide)

theorem fits_failureInput : Disk.Fits samplePlace failureInput :=
  ⟨Disk.isPart_failureInput, by decide, fun _ => by decide, fun _ => by decide⟩

theorem orderly_failing : Orderly sampleKlee.config failing sampleCall samplePlace where
  written _ _ hd hhere := Disk.written_failAt hd hhere
  complete _ _ hd hhere hfree _ hn _ hx :=
    complete_failAt (by decide) proper_samplePlace fits_failureInput (by decide) hd hhere hfree hn
      hx

theorem orderly_other {call : Call} (hcall : call ≠ sampleCall) (c : Config) (p : Path) :
    Orderly c failing call p :=
  orderly_of_idle (fun _ _ => if_neg hcall) c p

theorem sampleDisk_wellFormed : sampleDisk.WellFormed := by
  have hroot : Scheduler.emptyDisk.get? ([] ++ ["kleeout"]) = none := by decide
  exact Scheduler.emptyDisk_wellFormed.insert hroot (Disk.get?_root _) .directory

/-- The sample project is where the working directory is. -/
def sampleFooting : Footing :=
  ⟨⟨.relative, []⟩, [], "kleeout", []⟩

/-- The sample project can be verified from where it is. -/
theorem grounds_sample : sampleKlee.Grounds sampleFooting sampleDisk where
  wellFormed := sampleDisk_wellFormed
  here := Disk.get?_root _
  leads := by decide
  down := .singleton (by decide) (by decide)
  footing d' hways := by
    have hhere : d'.here = [] := hways.here
    exact (Disk.directoryAt?_hereDir d').trans (congrArg some hhere)
  script _ _ _ s hs := by cases hs
  plain l t _ hl := by
    by_cases hnil : l = []
    · rw [hnil, Disk.get?_root] at hl
      cases hl
    · have hget : sampleDisk.get? l =
          if l = ["kleeout"] then some .directory else Scheduler.emptyDisk.get? l :=
        Disk.get?_insert (d := Scheduler.emptyDisk) hnil
      rw [hget] at hl
      split at hl
      · cases hl
      · unfold Disk.get? at hl
        rw [if_neg hnil] at hl
        cases hl

/-! ### Jobs at one place -/

variable {job : Job} {words : List String} {d' : Disk}

theorem site_sample : Disk.Site Scheduler.kleeDir ["kleeout"] "t" sampleDisk where
  steady d' hd' := by
    have hget : d'.get? ["kleeout"] = some .directory :=
      (hd'.outside ["kleeout"] (by decide)).trans (by decide)
    have hhere : d'.directoryAt? Disk.hereDir = some [] :=
      (Disk.directoryAt?_hereDir d').trans (congrArg some hd'.here)
    exact Disk.directoryAt?_child Disk.proper_hereDir (by decide) (by decide) hhere hget
  directory := by decide
  wellFormed := sampleDisk_wellFormed

theorem fits_t : Disk.Fits Scheduler.kleeDir "t" := by decide

/-- The launch of a job at the place, where this disk has been prepared. -/
def failingLaunch (job : Job) (words : List String) (w : World) (d : Disk) : Launch where
  output := samplePlace
  words := words
  prepared := { w with started := w.started ++ [job], disk := d }
  disk := (failing.behave w.calls (sampleKlee.command words).call d).1
  code := 1
  stdout := []
  stderr := []
  overruns := false

theorem failingLaunch_disk (hcall : (sampleKlee.command words).call ≠ sampleCall) (job : Job)
    (w : World) (d : Disk) : (failingLaunch job words w d).disk = d :=
  if_neg hcall

/-- Whatever is at the place, it is empty when the job's process is started. -/
theorem launches_failing (hout : Backend.klee.outputDir sampleKlee.config job = samplePlace)
    (hbuilt : Backend.klee.invocation sampleKlee.config job samplePlace = .ok words)
    (hs : Disk.Site Scheduler.kleeDir ["kleeout"] "t" w.disk)
    (hplain : ∀ t, w.disk.get? ["kleeout", "t"] ≠ some (.link t)) :
    ∃ d, Disk.Beside ["kleeout", "t"] w.disk d ∧
      (∀ below, d.get? (["kleeout", "t"] ++ below) = none) ∧
      sampleKlee.Launches job failing w (failingLaunch job words w d) := by
  obtain ⟨d, hrun, hbeside, hempty⟩ := OutputDir.prepare_child (h := failing)
    (w := { w with started := w.started ++ [job] }) Scheduler.proper_kleeDir
    (List.cons_ne_nil _ _) fits_t sampleKlee_isVerifier hout rfl hs (Disk.followed_of_plain hplain)
  have hnull : Disk.hasNull (Scheduler.kleeDir.child "t").text = false := by decide
  rw [hnull, if_neg Bool.false_ne_true] at hempty
  exact ⟨d, hbeside, hempty, ⟨hrun, hbuilt, nofun, rfl⟩⟩

theorem find_samplePlace (hs : Disk.Site Scheduler.kleeDir ["kleeout"] "t" d)
    (hempty : ∀ below, d.get? (["kleeout", "t"] ++ below) = none) :
    d.find .itself samplePlace.text = .ok (.vacant ["kleeout"] "t") := by
  have hfind := Disk.find_child Scheduler.proper_kleeDir fits_t (by decide) hs.found .itself
    (.inl rfl)
  unfold Disk.foundAt at hfind
  rw [show d.get? (["kleeout"] ++ ["t"]) = none from hempty []] at hfind
  exact hfind

theorem beside_withTest (hs : Disk.Site Scheduler.kleeDir ["kleeout"] "t" d)
    (hempty : ∀ below, d.get? (["kleeout", "t"] ++ below) = none) :
    Disk.Beside ["kleeout", "t"] d (d.withTest ["kleeout", "t"]) where
  here := rfl
  outside l hl := by
    rw [Disk.get?_withTest (List.cons_ne_nil _ _), if_neg, if_neg]
    · rintro rfl
      exact hl List.prefix_rfl
    · rintro (rfl | rfl) <;> exact hl (List.prefix_append _ _)
  wellFormed hd := Disk.wellFormed_withTest (q := ["kleeout"]) hd hs.directory (hempty [])

/-- The input of the failing test is among the counterexamples of the sample job. -/
theorem collects_failing (hs : Disk.Site Scheduler.kleeDir ["kleeout"] "t" d)
    (hempty : ∀ below, d.get? (["kleeout", "t"] ++ below) = none) :
    Counterexample.Collects sampleKlee.backend sampleKlee.config samplePlace
      (d.failAt samplePlace) (samplePlace.child failureInput) := by
  obtain ⟨hdir, heq⟩ := Disk.failAt_of_vacant hs.wellFormed proper_samplePlace
    (find_samplePlace hs hempty)
  have hwf := Disk.wellFormed_withTest hs.wellFormed hs.directory (hempty [])
  refine ⟨rfl, by decide, failureName, ?_, by decide, ?_⟩
  · rw [Disk.list_of_directoryAt hdir, heq, hwf.mem_childNames,
      Disk.get?_withTest (Disk.concat_ne_nil _ _), if_pos (.inr rfl)]
    exact Option.some_ne_none _
  · have hinput : Counterexample.inputName failureName = failureInput := by decide
    rw [if_neg (by decide), Counterexample.inputOf_child, hinput]
    exact ⟨by decide, rfl⟩

/-- Nothing is found in a place that is empty. -/
theorem not_found_of_empty (hs : Disk.Site Scheduler.kleeDir ["kleeout"] "t" d)
    (hempty : ∀ below, d.get? (["kleeout", "t"] ++ below) = none) (q : Location) (e : Entry) :
    d.find .target (samplePlace.child failureInput).text ≠ .ok (.entry q e) := by
  rw [Disk.find_child_of_route_error proper_samplePlace Disk.isPart_failureInput (by decide)
    (Disk.route_of_vacant proper_samplePlace (find_samplePlace hs hempty))]
  exact nofun

theorem not_aborts_failing (job : Job) (words : List String) (w : World) (d : Disk) :
    ¬ sampleKlee.Aborts (failingLaunch job words w d) := by
  have hparts : ∀ part ∈ Counterexample.fixedParts samplePlace, Disk.hasNull part = false := by
    decide
  exact not_aborts rfl nofun hparts

end Checker

namespace Scheduler

open Checker (sampleKlee sampleJob sampleDisk sampleFooting failing)

/-- Two jobs, the first of which has a failing test. -/
theorem run_owned_sample :
    sampleKlee.backend.IsVerifier ∧ sampleKlee.config.manifestPath.Proper ∧
      (∀ job ∈ [sampleJob, secondJob],
        Checker.Descends sampleFooting job (World.begin sampleDisk).disk) ∧
      (∀ job ∈ [sampleJob, secondJob], ∀ words, sampleKlee.backend.invocation sampleKlee.config job
        (sampleKlee.backend.outputDir sampleKlee.config job) = .ok words →
          Orderly sampleKlee.config failing (sampleKlee.command words).call
            (sampleKlee.backend.outputDir sampleKlee.config job)) ∧
      sampleKlee.Grounds sampleFooting (World.begin sampleDisk).disk ∧
      isSequential 1 [sampleJob, secondJob] = true ∧
      ∃ suite w', ((ofChecker sampleKlee (Config.standard 1)).run .absent [sampleJob, secondJob]
          1).run failing (World.begin sampleDisk) = (.ok (suite, .absent), w') ∧
        suite.outcomes.length = 2 ∧
        Owned sampleKlee (Config.standard 1) failing (World.begin sampleDisk)
          [sampleJob, secondJob] suite.outcomes w'.disk := by
  have hdescends : ∀ job ∈ [sampleJob, secondJob],
      Checker.Descends sampleFooting job (World.begin sampleDisk).disk := by
    intro job hjob
    rcases List.mem_pair.mp hjob with rfl | rfl
    all_goals exact ⟨by decide, by decide, by decide⟩
  have horderly : ∀ job ∈ [sampleJob, secondJob], ∀ words,
      sampleKlee.backend.invocation sampleKlee.config job
        (sampleKlee.backend.outputDir sampleKlee.config job) = .ok words →
          Orderly sampleKlee.config failing (sampleKlee.command words).call
            (sampleKlee.backend.outputDir sampleKlee.config job) := by
    intro job hjob words hwords
    rcases List.mem_pair.mp hjob with rfl | rfl
    · cases hwords
      exact Checker.orderly_failing
    · cases hwords
      exact Checker.orderly_other (by decide) _ _
  have hc : sampleKlee.config.manifestPath.Proper := Path.proper_parse _
  exact ⟨Checker.sampleKlee_isVerifier, hc, hdescends, horderly, Checker.grounds_sample, rfl,
    run_owned Checker.sampleKlee_isVerifier hc hdescends horderly Checker.grounds_sample rfl
      .absent⟩

/-- A job whose name leads to the same place. -/
def aliasJob : Job := ⟨"./t", "u", ⟨.relative, ["t.bc"]⟩⟩

/-- **Jobs do not spare each other's files**: the second takes away what the first has found. -/
theorem run_not_owned :
    (∀ job ∈ [sampleJob, aliasJob],
        Checker.Descends sampleFooting job (World.begin sampleDisk).disk) ∧
      (∀ job ∈ [sampleJob, aliasJob], ∀ words, sampleKlee.backend.invocation sampleKlee.config job
        (sampleKlee.backend.outputDir sampleKlee.config job) = .ok words →
          Orderly sampleKlee.config failing (sampleKlee.command words).call
            (sampleKlee.backend.outputDir sampleKlee.config job)) ∧
      sampleKlee.Grounds sampleFooting (World.begin sampleDisk).disk ∧
      ∃ suite w', ((ofChecker sampleKlee (Config.standard 1)).run .absent [sampleJob, aliasJob]
          1).run failing (World.begin sampleDisk) = (.ok (suite, .absent), w') ∧
        ∃ o ∈ suite.outcomes, ∃ x ∈ o.counterexamples, ∀ loc e,
          w'.disk.find .target x ≠ .ok (.entry loc e) := by
  refine ⟨fun job hjob => ?_, fun job hjob words hwords => ?_, Checker.grounds_sample, ?_⟩
  · rcases List.mem_pair.mp hjob with rfl | rfl
    all_goals exact ⟨by decide, by decide, by decide⟩
  · rcases List.mem_pair.mp hjob with rfl | rfl
    · cases hwords
      exact Checker.orderly_failing
    · cases hwords
      exact Checker.orderly_other (by decide) _ _
  have hk := Checker.sampleKlee_isVerifier
  obtain ⟨os, w₁, w', hrun, hdeeds, ht⟩ := run_sequential
    (proper_ofChecker sampleKlee (Config.standard 1))
    (show isSequential 1 [sampleJob, aliasJob] = true from rfl) .absent failing
    (World.begin sampleDisk)
  have hdisk : w₁.disk = sampleDisk := disk_of_deeds hdeeds
  refine ⟨_, w', hrun, ?_⟩
  cases ht with
  | @next _ w₂ _ _ o _ os hset hd rest =>
    cases rest with
    | @next _ w₃ _ _ o' _ _ hset' hd' rest' =>
      cases rest'
      -- the first job finds a failing test
      have hs₁ : Disk.Site kleeDir ["kleeout"] "t" w₁.disk := hdisk ▸ Checker.site_sample
      have hplain₁ : ∀ t, w₁.disk.get? ["kleeout", "t"] ≠ some (.link t) := by
        rw [hdisk, show sampleDisk.get? ["kleeout", "t"] = none by decide]
        exact fun t => nofun
      obtain ⟨d₁, hbeside₁, hempty₁, hl₁⟩ := Checker.launches_failing
        (show Backend.klee.outputDir sampleKlee.config sampleJob = Checker.samplePlace by decide)
        rfl hs₁ hplain₁
      have hsd₁ := hs₁.beside hbeside₁
      obtain ⟨hleft₁, hfound₁⟩ := Checker.left_of_launches hk rfl hl₁
      obtain ⟨o₁, ho₁, -⟩ := Checker.verify_returns hk hl₁ (Checker.not_aborts_failing _ _ _ _)
      have heq : o = o₁ := hset.returned o₁ ho₁
      subst heq
      have hx := (hfound₁ o ho₁ _).mpr ⟨_, Checker.collects_failing hsd₁ hempty₁, rfl⟩
      refine ⟨o, List.mem_cons_self, _, hx, fun q e => ?_⟩
      -- the second job takes it away
      have hdisk₂ : w₂.disk = d₁.withTest ["kleeout", "t"] := by
        rw [disk_of_deeds hd]
        exact hleft₁.trans (Disk.failAt_of_vacant hsd₁.wellFormed Checker.proper_samplePlace
          (Checker.find_samplePlace hsd₁ hempty₁)).2
      have hs₂ : Disk.Site kleeDir ["kleeout"] "t" w₂.disk :=
        hdisk₂ ▸ hsd₁.beside (Checker.beside_withTest hsd₁ hempty₁)
      have hplain₂ : ∀ t, w₂.disk.get? ["kleeout", "t"] ≠ some (.link t) := by
        rw [hdisk₂, Disk.get?_withTest (List.cons_ne_nil _ _), if_neg (by decide), if_pos rfl]
        exact fun t => nofun
      obtain ⟨d₂, hbeside₂, hempty₂, hl₂⟩ := Checker.launches_failing
        (show Backend.klee.outputDir sampleKlee.config aliasJob = Checker.samplePlace by decide)
        rfl hs₂ hplain₂
      have hdisk₃ : w'.disk = d₂ := by
        rw [disk_of_deeds hd']
        exact (Checker.left_of_launches hk rfl hl₂).1.trans
          (Checker.failingLaunch_disk (by decide) aliasJob w₂ d₂)
      rw [hdisk₃]
      exact Checker.not_found_of_empty (hs₂.beside hbeside₂) hempty₂ q e

end Scheduler

end Assay
