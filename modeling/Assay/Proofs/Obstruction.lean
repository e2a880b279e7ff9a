import Assay.Proofs.Freshness

/-!
# Places that cannot be cleared

What becomes of a job if the entry at its place cannot be removed. A job is `Stopped` if nothing is
done for it, no process started and nothing written, and its outcome says what is in the way.
`stopped_iff`: that is so exactly if the job's path leads to something. Files and directories are
what their path leads to, so they always stop the job.

A link that leads nowhere does not, since the question whether anything is in the way follows links.
`prepare_dangling`: a tool that makes its directory itself is then given the path of the link, and
where the directory has to be made, making it fails with another fault.
-/

namespace Assay

namespace Disk

variable {d : Disk} {root : Path} {name : String} {e : Entry}

/-- Only a link leads away from its place. -/
theorem look_target_of_plain (hp : root.Proper) (hname : Path.IsPart name) (hup : name ≠ "..")
    (hplain : ∀ t, e ≠ .link t) (hlook : d.look .itself (root.child name).text = .ok (some e)) :
    d.look .target (root.child name).text = .ok (some e) := by
  obtain ⟨hnull, loc, hf⟩ := find_of_look hlook
  obtain ⟨q, hq, -, hget⟩ := entry_of_find_child hp hname hup hf
  have hfits : Fits root name := by
    by_contra hn
    obtain ⟨-, hlong⟩ := find_of_not_fits hp hname hup hn hq .itself
    rw [hf] at hlong
    cases hlong
  have hlink : ∀ t, d.get? (q ++ [name]) ≠ some (.link t) := fun t ht =>
    hplain t (Option.some.inj (hget.symm.trans ht))
  have htarget := look_child hp hfits hq .target (.inr hlink)
  rwa [hnull, if_neg Bool.false_ne_true, hget] at htarget

/-- A directory is not made over an entry that leads nowhere. -/
theorem ensureDirectory_of_dangling {path : String}
    (hi : d.look .itself path = .ok (some e)) (ht : d.look .target path = .ok none) :
    d.ensureDirectory path = .error (.ofErrno .entryExists path) := by
  obtain ⟨-, loc, hf⟩ := find_of_look hi
  have hmake : d.makeDirectory path = .error (.ofErrno .entryExists path) := by
    unfold makeDirectory
    rw [hf]
  have hdir : d.isDirectory? path = .ok false := by
    unfold isDirectory?
    rw [ht]
    rfl
  unfold ensureDirectory
  rw [hmake]
  dsimp only
  rw [if_neg (code_entryExists path), hdir]

end Disk

namespace OutputDir

variable {b : Backend} {c : Config} {job : Job} {h : Host} {w : World} {root path : Path}
  {name : String} {e : Entry}

/-! ## Clearing in vain -/

theorem isTree_answers {e e' : Option Entry} (ht : w.disk.look .target path.text = .ok e)
    (hi : w.disk.look .itself path.text = .ok e') :
    ∃ tree, (isTree path).run h w = (.ok tree, w) := by
  have hdir : ∃ there, w.disk.isDirectory? path.text = .ok there := by
    unfold Disk.isDirectory?
    rw [ht]
    exact ⟨_, rfl⟩
  have hlink : ∃ link, w.disk.isLink? path.text = .ok link := by
    unfold Disk.isLink?
    rw [hi]
    exact ⟨_, rfl⟩
  obtain ⟨there, hdir⟩ := hdir
  obtain ⟨link, hlink⟩ := hlink
  unfold isTree
  rw [Action.bind_of_ok (Action.askDisk_run hdir)]
  cases there with
  | true =>
    rw [if_pos rfl, Action.bind_of_ok (Action.askDisk_run hlink)]
    exact ⟨_, rfl⟩
  | false => exact ⟨false, rfl⟩

theorem isOccupied_answers {e e' : Option Entry} (ht : w.disk.look .target path.text = .ok e)
    (hi : w.disk.look .itself path.text = .ok e') :
    ∃ occupied, (isOccupied path).run h w = (.ok occupied, w) := by
  have hexists : w.disk.exists? path.text = .ok e.isSome := by
    unfold Disk.exists?
    rw [ht]
    rfl
  have hlink : ∃ link, w.disk.isLink? path.text = .ok link := by
    unfold Disk.isLink?
    rw [hi]
    exact ⟨_, rfl⟩
  obtain ⟨link, hlink⟩ := hlink
  unfold isOccupied
  rw [Action.bind_of_ok (Action.askDisk_run hexists)]
  cases e.isSome with
  | true => exact ⟨true, rfl⟩
  | false => exact ⟨link, Action.askDisk_run hlink⟩

/-- **Clearing in vain** is not noticed while it is done. -/
theorem clear_pinned {e e' : Option Entry} (hpin : h.pinned path = true)
    (ht : w.disk.look .target path.text = .ok e) (hi : w.disk.look .itself path.text = .ok e') :
    (clear path).run h w = (.ok (), w) := by
  have htree : (removeTree path).run h w = (.ok (), w) := by
    unfold removeTree
    rw [Action.bind_of_ok (Action.host_run h w), hpin, if_pos rfl]
    rfl
  have hentry : (removeEntry path).run h w = (.ok (), w) := by
    unfold removeEntry
    rw [Action.bind_of_ok (Action.host_run h w), hpin, if_pos rfl]
    rfl
  obtain ⟨tree, hisTree⟩ := isTree_answers (h := h) ht hi
  obtain ⟨occupied, hisOccupied⟩ := isOccupied_answers (h := h) ht hi
  unfold clear
  rw [Action.bind_of_ok hisTree]
  cases tree with
  | true => exact htree
  | false =>
    rw [if_neg Bool.false_ne_true, Action.bind_of_ok hisOccupied]
    cases occupied with
    | true => exact hentry
    | false => rfl

/-! ## Preparing in vain -/

section

variable (hb : b.IsVerifier) (hout : b.outputDir c job = root.child name)
  (hpin : h.pinned (root.child name) = true)
  (hi : w.disk.look .itself (root.child name).text = .ok (some e))

include hb hout hpin hi

/-- What the path leads to is in the way. -/
theorem prepare_inTheWay {t : Entry}
    (ht : w.disk.look .target (root.child name).text = .ok (some t)) :
    (prepare b c job).run h w = (.error (.job (.outputInTheWay (root.child name).text)), w) := by
  have hexists : w.disk.exists? (root.child name).text = .ok true := by
    unfold Disk.exists?
    rw [ht]
    rfl
  rw [prepare_eq hb hout, Action.bind_of_ok (clear_pinned hpin ht hi),
    Action.bind_of_ok (Action.askDisk_run hexists), if_pos rfl]
  rfl

/-- **A link that leads nowhere** is in no one's way: it is handed out as the place for results, or
the directory that is wanted cannot be made. -/
theorem prepare_dangling (hp : root.Proper) (hne : root.parts ≠ []) (hname : Path.IsPart name)
    (hup : name ≠ "..") (ht : w.disk.look .target (root.child name).text = .ok none) :
    (prepare b c job).run h w =
      (if b.tool.wantsOutputDir then
        .error (.disk (.ofErrno .entryExists (root.child name).text))
      else .ok (root.child name), w) := by
  obtain ⟨hnull, loc, hf⟩ := Disk.find_of_look hi
  obtain ⟨q, hq, -, -⟩ := Disk.entry_of_find_child hp hname hup hf
  -- nothing is found, so preparing goes on to the directories
  rw [prepare_of_clear hb hout (clear_pinned hpin ht hi) ht, wanted]
  cases b.tool.wantsOutputDir with
  | true =>
    have hensure := Disk.ensureDirectory_of_dangling hi ht
    have hcode := Disk.code_entryExists (root.child name).text
    have hmade := Disk.makeDirectories_of_blocked hensure hcode
    have hfew : w.disk.missingAncestors (root.child name) ≤ h.maxMissing := by
      rw [Disk.missingAncestors_of_blocked hensure hcode]
      exact Nat.zero_le _
    exact Action.bind_of_error (makeDirectories_run_of_few hnull hfew hmade) _
  | false =>
    have hroot : Disk.hasNull root.text = false :=
      Bool.eq_false_iff.mpr fun hn => by
        rw [hasNull_child hne hn] at hnull
        cases hnull
    have hensure := Disk.ensureDirectory_of_directoryAt hp hroot hq
    rw [if_neg Bool.false_ne_true, if_neg Bool.false_ne_true,
      Action.bind_of_ok (makeDirectories_run hroot hensure)]
    rfl

end

end OutputDir

namespace Checker

open OutputDir (linkedDisk)

variable {k : Checker} {job : Job} {h : Host} {w : World} {e : Entry}

/-! ## Stopped jobs -/

/-- Something is in the way of the job's results. -/
def inTheWay (k : Checker) (job : Job) : JobFault :=
  .outputInTheWay (k.backend.outputDir k.config job).text

/-- Nothing is done for the job but to take it up, and its outcome says what is in the way. -/
structure Stopped (k : Checker) (c : Config) (job : Job) (h : Host) (w : World) : Prop where
  prepared : (OutputDir.prepare k.backend k.config job).run h w =
    (.error (.job (k.inTheWay job)), w)
  verified : (k.verify job).run h w =
    (.error (.job (k.inTheWay job)), { w with started := w.started ++ [job] })
  settled : ∃ o w', ((Scheduler.ofChecker k c).runOne job).run h w = (.ok o, w') ∧
    o.displayName = job.displayName ∧ o.verdict = .unknown ∧
      o.error = some (k.inTheWay job).message ∧
        w'.deeds = (w.disk, w.calls, w.started ++ [job])

/-- A job whose place cannot be prepared is stopped. -/
theorem stopped_of_prepare (hk : k.backend.IsVerifier)
    (hf : ∀ w' : World, w'.disk = w.disk →
      (OutputDir.prepare k.backend k.config job).run h w' = (.error (.job (k.inTheWay job)), w'))
    (c : Config) : Stopped k c job h w := by
  have hverify : (k.verify job).run h w =
      (.error (.job (k.inTheWay job)), { w with started := w.started ++ [job] }) :=
    Scheduler.verify_of_unprepared hk (hf { w with started := w.started ++ [job] } rfl)
  refine ⟨hf w rfl, hverify, ?_⟩
  obtain ⟨o, w', hrun, hsettled, hdeeds⟩ :=
    Scheduler.runOne_run (Scheduler.proper_ofChecker k c) job h w
  have hverify' : ((Scheduler.ofChecker k c).verify job).run h w = _ := hverify
  rw [hverify'] at hsettled hdeeds
  obtain rfl := hsettled.raised _ rfl
  exact ⟨_, w', hrun, rfl, rfl, rfl, hdeeds⟩

/-- **What cannot be removed stops the job** exactly if the job's path leads to something, and so it
does if the entry is no link. Not removed means that nothing of the entry is; a removal that stops
half-way, and a path that may not be looked at, do not occur. -/
theorem stopped_iff (hk : k.backend.IsVerifier) (hc : k.config.manifestPath.Proper)
    (hname : Path.IsPart job.displayName) (hup : job.displayName ≠ "..")
    (hpin : h.pinned (k.backend.outputDir k.config job) = true)
    (hthere : w.disk.look .itself (k.backend.outputDir k.config job).text = .ok (some e))
    (c : Config) :
    (Stopped k c job h w ↔
        ∃ t, w.disk.look .target (k.backend.outputDir k.config job).text = .ok (some t)) ∧
      ((∀ t, e ≠ .link t) → Stopped k c job h w) := by
  have hp := Backend.proper_resultsDir hk hc
  have hne := Backend.resultsDir_parts_ne_nil hk k.config
  have hout := Backend.outputDir_eq hname k.backend k.config
  have hstops : ∀ t, w.disk.look .target (k.backend.outputDir k.config job).text = .ok (some t) →
      Stopped k c job h w := by
    intro t ht
    refine stopped_of_prepare hk (fun w' hw => ?_) c
    rw [← hw, hout] at hthere ht
    rw [hout] at hpin
    rw [inTheWay, hout]
    exact OutputDir.prepare_inTheWay hk hout hpin hthere ht
  refine ⟨⟨fun hs => ?_, fun ⟨t, ht⟩ => hstops t ht⟩, fun hplain => ?_⟩
  · -- the fault of a stopped job is not the one that follows a path that leads nowhere
    have hprepared := hs.prepared
    rw [hout] at hpin hthere ⊢
    cases ht : w.disk.look .target ((k.backend.resultsDir k.config).child job.displayName).text with
    | error f =>
      rw [OutputDir.prepare_of_look_error hk hout ht] at hprepared
      cases hprepared
    | ok t =>
      cases t with
      | some t => exact ⟨t, rfl⟩
      | none =>
        rw [OutputDir.prepare_dangling hk hout hpin hthere hp hne hname hup ht] at hprepared
        split at hprepared <;> cases hprepared
  · rw [hout] at hthere
    refine hstops e ?_
    rw [hout]
    exact Disk.look_target_of_plain hp hname hup hplain hthere

/-! ## Links that stay -/

/-- A host on which nothing can be removed. -/
def stuck : Host :=
  { saying [] with pinned := fun _ => true }

def sampleSeahorn : Checker := ⟨.seahorn, Config.standard 1, none⟩

/-- A link to a directory stops the job. -/
theorem stopped_at_link :
    sampleSeahorn.backend.IsVerifier ∧ sampleSeahorn.config.manifestPath.Proper ∧
      Path.IsPart sampleJob.displayName ∧ sampleJob.displayName ≠ ".." ∧
      stuck.pinned (sampleSeahorn.backend.outputDir sampleSeahorn.config sampleJob) = true ∧
      linkedDisk.look .itself
        (sampleSeahorn.backend.outputDir sampleSeahorn.config sampleJob).text =
          .ok (some (.link "../src")) ∧
      Stopped sampleSeahorn (Config.standard 1) sampleJob stuck (World.begin linkedDisk) := by
  have hk : sampleSeahorn.backend.IsVerifier := Backend.isVerifier_iff.mpr (.inr (.inl rfl))
  have hc : sampleSeahorn.config.manifestPath.Proper := Path.proper_parse _
  have hpart : Path.IsPart sampleJob.displayName := OutputDir.fits_seaDir.part
  have hout : sampleSeahorn.backend.outputDir sampleSeahorn.config sampleJob =
      OutputDir.seaDir.child "t" := by decide
  have hthere : linkedDisk.look .itself
      (sampleSeahorn.backend.outputDir sampleSeahorn.config sampleJob).text =
        .ok (some (.link "../src")) := by
    rw [hout]
    exact OutputDir.look_itself (w := World.begin linkedDisk) OutputDir.proper_seaDir
      OutputDir.fits_seaDir (by decide) OutputDir.site_seaDir
  have htarget : linkedDisk.look .target
      (sampleSeahorn.backend.outputDir sampleSeahorn.config sampleJob).text =
        .ok (some .directory) := by
    rw [hout]
    exact OutputDir.look_linkedDisk
  exact ⟨hk, hc, hpart, by decide, rfl, hthere,
    (stopped_iff (w := World.begin linkedDisk) hk hc hpart (by decide) rfl hthere
      (Config.standard 1)).1.mpr ⟨_, htarget⟩⟩

/-- The place of a job is a link that leads nowhere. -/
def danglingDisk : Disk :=
  (Scheduler.emptyDisk.insert ["kleeout"] .directory).insert ["kleeout", "t"] (.link "gone")

/-- Where KLEE's results of the job are to be. -/
def sampleOutput : Path := Scheduler.kleeDir.child "t"

theorem outputDir_sampleKlee :
    Backend.klee.outputDir (Config.standard 1) sampleJob = sampleOutput := by
  decide

theorem look_danglingDisk :
    danglingDisk.look .itself sampleOutput.text = .ok (some (.link "gone")) ∧
      danglingDisk.look .target sampleOutput.text = .ok none := by
  have hkleeout : danglingDisk.directoryAt? Scheduler.kleeDir = some ["kleeout"] :=
    Disk.directoryAt?_child Disk.proper_hereDir (by decide) (by decide)
      (Disk.directoryAt?_hereDir danglingDisk) (by decide)
  have hroute : danglingDisk.route Disk.maxLinks (danglingDisk.startOf Scheduler.kleeDir)
      Scheduler.kleeDir.parts = .ok (Disk.maxLinks, ["kleeout"]) := by
    show danglingDisk.route _ [] ["kleeout"] = _
    rw [Disk.route_into (by decide) (by decide), Disk.route]
    rfl
  have hitself : danglingDisk.find .itself sampleOutput.text =
      .ok (.entry ["kleeout", "t"] (.link "gone")) :=
    Disk.find_child Scheduler.proper_kleeDir (by decide) (by decide) hkleeout .itself (.inl rfl)
  have htarget : danglingDisk.find .target sampleOutput.text =
      .ok (.vacant ["kleeout"] "gone") := by
    have hnone : danglingDisk.get? (["kleeout"] ++ ["gone"]) = none := by decide
    have hgone : danglingDisk.walk .target 39 ["kleeout"] ["gone"] =
        .ok (.vacant ["kleeout"] "gone") :=
      Disk.walk_name (by decide) (by decide) (by decide)
        (.inr fun t => by rw [hnone]; exact (Option.some_ne_none _).symm) 39
    rw [sampleOutput, Disk.find_link Scheduler.proper_kleeDir (by decide) (by decide) hroute
      (t := "gone") (by decide)]
    exact hgone
  exact ⟨Disk.look_of_entry (by decide) hitself, Disk.look_of_vacant htarget⟩

/-- The launch of the sample job over the link. -/
def danglingLaunch : Launch :=
  { sampleLaunch [] with
    prepared := { World.begin danglingDisk with started := [sampleJob] }
    disk := danglingDisk }

theorem launches_danglingDisk :
    sampleKlee.Launches sampleJob stuck (World.begin danglingDisk) danglingLaunch where
  prepared :=
    OutputDir.prepare_dangling (b := .klee) sampleKlee_isVerifier outputDir_sampleKlee rfl
      look_danglingDisk.1 Scheduler.proper_kleeDir (List.cons_ne_nil _ _)
      OutputDir.fits_seaDir.part OutputDir.fits_seaDir.up look_danglingDisk.2
  built := rfl
  limited := nofun
  ended := rfl

/-- KLEE is started all the same, and the job has an outcome of its own. -/
theorem dangling_not_stopped :
    stuck.pinned (sampleKlee.backend.outputDir sampleKlee.config sampleJob) = true ∧
      danglingDisk.look .itself (sampleKlee.backend.outputDir sampleKlee.config sampleJob).text =
        .ok (some (.link "gone")) ∧
      sampleKlee.Launches sampleJob stuck (World.begin danglingDisk) danglingLaunch ∧
      (∃ o, ((sampleKlee.verify sampleJob).run stuck (World.begin danglingDisk)).1 = .ok o) ∧
      ¬ Stopped sampleKlee (Config.standard 1) sampleJob stuck (World.begin danglingDisk) := by
  have hout : sampleKlee.backend.outputDir sampleKlee.config sampleJob = sampleOutput :=
    outputDir_sampleKlee
  have hreturns : ∃ o, ((sampleKlee.verify sampleJob).run stuck (World.begin danglingDisk)).1 =
      .ok o := by
    obtain ⟨o, ho, -⟩ := verify_returns sampleKlee_isVerifier launches_danglingDisk
      (not_aborts rfl (fun line hline => by cases hline) (by decide))
    exact ⟨o, ho⟩
  refine ⟨rfl, ?_, launches_danglingDisk, hreturns, fun hs => ?_⟩
  · rw [hout]
    exact look_danglingDisk.1
  · obtain ⟨o, ho⟩ := hreturns
    rw [hs.verified] at ho
    cases ho

end Checker

end Assay
