import Assay.Proofs.Course
import Assay.Proofs.Footprint

/-!
# The order of the jobs does not matter

Jobs that keep to their places can be taken up in any order: `runInOrder_independent`. `Placed` says
what the jobs have to be like, and `Settles` what the disk has to be like.

The directory for results is what the jobs share. Either it cannot be made, and all jobs fail the
same way (`course_of_stuck`), or they have a course (`course_of_opens`). Then the first job that
gets so far makes the directory, and it does not matter which one that is: `verify_first`. `Opens`
asks for what the jobs rely on then. The way to the directory does not lead through a place, a link
at a place can be looked through, and if the directory has to be made, the places in it are free and
no name is too long for it. `opens_of_vacant` is the common case, where nothing has been kept yet.

Names do matter. One that is too long is refused in a directory that is there, and never looked at
in one that is not, so that the first job can do what no later one can: `long_name_order`.
-/

namespace Assay

namespace Backend

variable {b : Backend} {c : Config} {job : Job}

/-- The directory that the results of all jobs are in. -/
def resultsDir (b : Backend) (c : Config) : Path :=
  c.projectDir ++ Path.parse b.tool.outputRoot

theorem IsVerifier.isPart_outputRoot (hb : b.IsVerifier) : Path.IsPart b.tool.outputRoot := by
  rcases isVerifier_iff.mp hb with rfl | rfl | rfl <;> decide

theorem resultsDir_eq (hb : b.IsVerifier) (c : Config) :
    b.resultsDir c = c.projectDir.child b.tool.outputRoot :=
  Path.append_parse _ hb.isPart_outputRoot

theorem resultsDir_parts_ne_nil (hb : b.IsVerifier) (c : Config) :
    (b.resultsDir c).parts ≠ [] := by
  rw [resultsDir_eq hb]
  exact Path.child_parts_ne_nil _ _

theorem proper_resultsDir (hb : b.IsVerifier) (hc : c.manifestPath.Proper) :
    (b.resultsDir c).Proper := by
  rw [resultsDir_eq hb]
  exact hc.parent.child hb.isPart_outputRoot

theorem IsVerifier.fits_outputRoot (hb : b.IsVerifier)
    (hnull : Disk.hasNull (b.resultsDir c).text = false)
    (hfits : (b.resultsDir c).text.utf8ByteSize ≤ Disk.maxPath) :
    Disk.Fits c.projectDir b.tool.outputRoot where
  part := hb.isPart_outputRoot
  up := by rcases isVerifier_iff.mp hb with rfl | rfl | rfl <;> decide
  short _ := by rcases isVerifier_iff.mp hb with rfl | rfl | rfl <;> decide
  path _ := by rwa [← resultsDir_eq hb]

theorem outputDir_eq (hn : Path.IsPart job.displayName) (b : Backend) (c : Config) :
    b.outputDir c job = (b.resultsDir c).child job.displayName :=
  Path.append_parse _ hn

end Backend

namespace Disk

/-- The second disk differs from the first at these locations and below them only. -/
structure Agree (places : List Location) (d d' : Disk) : Prop where
  here : d'.here = d.here
  outside : ∀ l, (∀ loc ∈ places, ¬ loc <+: l) → d'.get? l = d.get? l

theorem Agree.refl (places : List Location) (d : Disk) : Agree places d d :=
  ⟨rfl, fun _ _ => rfl⟩

end Disk

namespace Scheduler

variable {k : Checker} {c : Config} {jobs : List Job} {h : Host} {d base : Disk} {q : Location}
  {job : Job} {w : World}

/-- The place of a job in the directory for results. -/
def placeIn (q : Location) (job : Job) : Location :=
  q ++ [job.displayName]

/-- Jobs of a verification tool, without a script. Their names differ, and each is a single
component of a path. What is in the way can be removed. -/
structure Placed (k : Checker) (jobs : List Job) (h : Host) : Prop where
  verifier : k.backend.IsVerifier
  script : k.script = none
  manifest : k.config.manifestPath.Proper
  removable : ∀ path, h.pinned path = false
  names : (jobs.map Job.displayName).Nodup
  parts : ∀ job ∈ jobs, Path.IsPart job.displayName ∧ job.displayName ≠ ".."

/-- The directory for results can be there, at `q` on the disk `base`, and the jobs keep apart. -/
structure Opens (k : Checker) (jobs : List Job) (h : Host) (d base : Disk) (q : Location) :
    Prop where
  made : d.makeDirectories (k.backend.resultsDir k.config) = (base, .ok ())
  /-- The way to the directory does not lead through the places in it. -/
  apart : ∀ d', base.Agree (jobs.map (placeIn q)) d' →
    d'.directoryAt? (k.backend.resultsDir k.config) = some q
  /-- A link at a place can be looked through, whatever is at the others. -/
  followed : ∀ job ∈ jobs, ∀ d', base.Agree ((jobs.map (placeIn q)).erase (placeIn q job)) d' →
    Disk.Followed (k.backend.resultsDir k.config) q job.displayName d'
  /-- If the directory has to be made, the places in it are free. -/
  fresh : d.directoryAt? (k.backend.resultsDir k.config) = none →
    ∀ job ∈ jobs, base.get? (placeIn q job) = none
  /-- If the directory has to be made, no name is too long for it. -/
  short : d.directoryAt? (k.backend.resultsDir k.config) = none →
    ∀ job ∈ jobs, ¬ Disk.Overlong (k.backend.resultsDir k.config) job.displayName
  /-- The jobs' processes keep to the places. -/
  confined : ∀ job ∈ jobs, ∀ words,
    k.backend.invocation k.config job (k.backend.outputDir k.config job) = .ok words →
    Confined h (k.command words).call (placeIn q job)

/-- It is settled whether there is a directory for results: it opens for the jobs, or it cannot be
made, nor anything on the way to it. -/
inductive Settles (k : Checker) (jobs : List Job) (h : Host) (d : Disk) : Prop where
  | opens (base : Disk) (q : Location) (ho : Opens k jobs h d base q)
  | blocked (f : OsFault) (hb : d.makeDirectories (k.backend.resultsDir k.config) = (d, .error f))

/-! ## Jobs that fail at once -/

theorem verify_of_unprepared {f : Fault} (hk : k.backend.IsVerifier)
    (hf : (OutputDir.prepare k.backend k.config job).run h
      { w with started := w.started ++ [job] } =
        (.error f, { w with started := w.started ++ [job] })) :
    (k.verify job).run h w = (.error f, { w with started := w.started ++ [job] }) := by
  rw [Checker.verify_eq hk, Action.bind_of_ok (Action.start_run job h w)]
  exact Action.bind_of_error hf _

/-- Jobs whose places cannot be prepared fail and change nothing. -/
theorem course_of_stuck (hk : k.backend.IsVerifier) (c : Config)
    (hstuck : ∀ job ∈ jobs, ∃ f, ∀ w : World, w.disk = d →
      (OutputDir.prepare k.backend k.config job).run h w = (.error f, w)) :
    ∃ result started, (ofChecker k c).Course h jobs (fun _ d' => d' = d) result started := by
  choose f hf using fun i : Fin jobs.length => hstuck (jobs.get i) (List.get_mem jobs i)
  refine ⟨fun i => .error (f i), fun _ => [], fun done i w _ hw => ?_, fun _ _ d₁ d₂ _ h₁ h₂ => ?_⟩
  · have hv : ((ofChecker k c).verify (jobs.get i)).run h w = _ :=
      verify_of_unprepared hk (hf i { w with started := w.started ++ [jobs.get i] } hw)
    rw [hv]
    exact ⟨rfl, (List.append_nil _).symm, hw⟩
  · rw [h₁, h₂]
    exact ⟨rfl, fun _ => rfl⟩

/-- The directory that the job's tool wants cannot be asked for, or the place cannot be looked
for. -/
def Idle (k : Checker) (job : Job) : Prop :=
  Disk.hasNull (OutputDir.wanted k.backend (k.backend.resultsDir k.config) job.displayName).text =
      true ∨
    ¬ Disk.Fits (k.backend.resultsDir k.config) job.displayName

section Placed

variable (hp : Placed k jobs h)

include hp

/-- An idle job fails and changes nothing, at least where there is a directory to look for its place
in. -/
theorem verify_of_idle (hjob : job ∈ jobs) (hi : Idle k job) :
    ∃ f, ∀ w : World,
      (Disk.Overlong (k.backend.resultsDir k.config) job.displayName →
        ∃ q, w.disk.directoryAt? (k.backend.resultsDir k.config) = some q) →
      (k.verify job).run h w = (.error f, { w with started := w.started ++ [job] }) := by
  obtain ⟨hname, hup⟩ := hp.parts job hjob
  have hproper := Backend.proper_resultsDir hp.verifier hp.manifest
  have hout := Backend.outputDir_eq hname k.backend k.config
  rcases hi with hnull | hfits
  · refine ⟨.nullByte, fun w _ => ?_⟩
    have hrun := OutputDir.prepare_null (h := h) (w := { w with started := w.started ++ [job] })
      (Backend.resultsDir_parts_ne_nil hp.verifier k.config) hp.verifier hout hnull
    rw [OutputDir.prepared, if_pos hnull] at hrun
    exact verify_of_unprepared hp.verifier hrun
  · obtain ⟨hnull, hlong⟩ := Disk.not_fits hname hup hfits
    refine ⟨_, fun w hw => verify_of_unprepared hp.verifier
      (OutputDir.prepare_of_find_error (e := .nameTooLong) hp.verifier hout hnull rfl ?_)⟩
    rcases hlong with hlong | hlong
    · exact Disk.find_of_long (hproper.child hname) hlong _
    · obtain ⟨q, hq⟩ := hw hlong
      exact Disk.find_child_of_overlong hproper hname hup hlong hq _

/-- Where the directory for results cannot be made, no place can be prepared. -/
theorem stuck_of_hopeless (hnone : Disk.hasNull (k.backend.resultsDir k.config).text = false →
      d.directoryAt? (k.backend.resultsDir k.config) = none)
    (hf : OutputDir.Hopeless h k.backend (k.backend.resultsDir k.config) d) :
    ∀ job ∈ jobs, ∃ f, ∀ w : World, w.disk = d →
      (OutputDir.prepare k.backend k.config job).run h w = (.error f, w) := by
  intro job hjob
  have hname := (hp.parts job hjob).1
  exact OutputDir.prepare_hopeless (Backend.proper_resultsDir hp.verifier hp.manifest)
    (Backend.resultsDir_parts_ne_nil hp.verifier k.config) hname hp.verifier
    (Backend.outputDir_eq hname k.backend k.config) hnone h hf

end Placed

/-! ## One directory -/

/-- A job on its own, in the directory for results. -/
def alone (k : Checker) (h : Host) (base : Disk) (job : Job) : Except Fault Outcome × World :=
  (k.verify job).run h (World.begin base)

def place (q : Location) (jobs : List Job) (i : Fin jobs.length) : Location :=
  placeIn q (jobs.get i)

/-- What a job leaves that is verified on its own. -/
def left (k : Checker) (jobs : List Job) (h : Host) (base : Disk) (i : Fin jobs.length) : Disk :=
  (alone k h base (jobs.get i)).2.disk

/-- The directory for results is still to be made: it was not there, and no job has got so far. -/
def Unmade (k : Checker) (jobs : List Job) (d : Disk) (done : List (Fin jobs.length)) : Prop :=
  d.directoryAt? (k.backend.resultsDir k.config) = none ∧ ∀ i ∈ done, Idle k (jobs.get i)

/-- The disk after some jobs. -/
structure Stage (k : Checker) (jobs : List Job) (h : Host) (d base : Disk) (q : Location)
    (done : List (Fin jobs.length)) (d' : Disk) : Prop where
  unmade : Unmade k jobs d done → d' = d
  made : ¬ Unmade k jobs d done → base.After (place q jobs) (left k jobs h base) done d'

/-- A job comes to what it would have come to on its own. -/
structure Step (k : Checker) (h : Host) (base : Disk) (job : Job) (w : World)
    (next : Disk → Prop) : Prop where
  result : ((k.verify job).run h w).1 = (alone k h base job).1
  calls : ((k.verify job).run h w).2.calls = w.calls ++ (alone k h base job).2.calls
  next : next ((k.verify job).run h w).2.disk

theorem place_injective (hn : (jobs.map Job.displayName).Nodup) (i j : Fin jobs.length)
    (l : Location) (hi : place q jobs i <+: l) (hj : place q jobs j <+: l) : i = j := by
  have hname : (jobs.map Job.displayName)[i] = (jobs.map Job.displayName)[j] := by
    rw [Fin.getElem_fin, Fin.getElem_fin, List.getElem_map, List.getElem_map]
    exact Disk.name_of_prefix hi hj
  exact Fin.ext ((List.Nodup.getElem_inj_iff hn).mp hname)

section Opens

variable (hp : Placed k jobs h) (ho : Opens k jobs h d base q)

include hp ho

/-- The disk with the directory is a tree, and the directory is in it. -/
theorem opens_base (hd : d.WellFormed) (hhere : d.get? d.here = some .directory) :
    base.WellFormed ∧ base.get? q = some .directory := by
  obtain ⟨loc, hlocated⟩ := Disk.makeDirectories_ok_iff.mp ho.made
  have hproper := Backend.proper_resultsDir hp.verifier hp.manifest
  obtain ⟨q', -, -, hgrown⟩ := Disk.makeLocated_ok d hproper hlocated
  have hbase := hgrown.wellFormed hd hhere
  have hhere' : base.get? base.here = some .directory := by
    rw [hgrown.here]
    exact hgrown.keeps _ _ hhere
  exact ⟨hbase, Disk.get?_of_directoryAt hbase hhere' hproper (ho.apart base (.refl _ _))⟩

omit hp in
/-- A disk that differs from the one with the directory in the jobs' places only. -/
theorem opens_site {d' : Disk} (hjob : job ∈ jobs) (hag : base.Agree (jobs.map (placeIn q)) d')
    (hd' : d'.WellFormed) (hq : base.get? q = some .directory) :
    Disk.Site (k.backend.resultsDir k.config) q job.displayName d' where
  steady d'' hb := by
    refine ho.apart d'' ⟨hb.here.trans hag.here, fun l hl => ?_⟩
    rw [hb.outside l (hl _ (List.mem_map_of_mem hjob)), hag.outside l hl]
  directory := by
    rw [hag.outside q, hq]
    intro loc hloc
    obtain ⟨other, -, rfl⟩ := List.mem_map.mp hloc
    exact Disk.not_within_self q other.displayName
  wellFormed := hd'

variable (hd : base.WellFormed) (hq : base.get? q = some .directory)
  {done : List (Fin jobs.length)} {i : Fin jobs.length}

section After

variable (hw : base.After (place q jobs) (left k jobs h base) done w.disk) (hi : i ∉ done)

omit ho
include hw hi

/-- No job that has been done has anything to do with the place of another. -/
theorem get?_after (l : Location) (hl : place q jobs i <+: l) : w.disk.get? l = base.get? l :=
  hw.outside l fun j hj hl' => hi (place_injective hp.names i j l hl hl' ▸ hj)

theorem agree_after :
    base.Agree ((jobs.map (placeIn q)).erase (placeIn q (jobs.get i))) w.disk where
  here := hw.here
  outside l hl := hw.outside l fun j hj => by
    refine hl _ ((List.mem_erase_of_ne fun heq => ?_).mpr
      (List.mem_map_of_mem (List.get_mem jobs j)))
    have hprefix : place q jobs i <+: place q jobs j := by
      rw [heq]
      exact List.prefix_rfl
    exact hi (place_injective hp.names i j _ hprefix List.prefix_rfl ▸ hj)

end After

omit hp ho in
theorem agree_places (hw : base.After (place q jobs) (left k jobs h base) done w.disk) :
    base.Agree (jobs.map (placeIn q)) w.disk where
  here := hw.here
  outside l hl := hw.outside l fun j _ => hl _ (List.mem_map_of_mem (List.get_mem jobs j))

omit hp ho in
/-- Where a job on its own has a twin, it has come to the same. -/
theorem step_of_twins {d₀ : Disk} (hn : (jobs.map Job.displayName).Nodup)
    (hafter : base.After (place q jobs) (left k jobs h base) done d₀) (hi : i ∉ done)
    (hresult : ((k.verify (jobs.get i)).run h w).1 = (alone k h base (jobs.get i)).1)
    (htwins : Twins (place q jobs i) d₀ base w.calls [] ((k.verify (jobs.get i)).run h w).2
      (alone k h base (jobs.get i)).2) :
    Step k h base (jobs.get i) w
      (base.After (place q jobs) (left k jobs h base) (done ++ [i])) := by
  obtain ⟨new, hcalls, hcalls'⟩ := htwins.calls
  rw [List.nil_append] at hcalls'
  refine ⟨hresult, by rw [hcalls, hcalls'], hafter.step (place_injective hn) hi htwins.left ?_⟩
  rintro _ ⟨below, rfl⟩
  exact htwins.same below

/-- An idle job does nothing, and would have done nothing on its own. -/
theorem idle_step (hidle : Idle k (jobs.get i))
    (hfound : Disk.Overlong (k.backend.resultsDir k.config) (jobs.get i).displayName →
      ∃ q, w.disk.directoryAt? (k.backend.resultsDir k.config) = some q) :
    Step k h base (jobs.get i) w (· = w.disk) ∧ left k jobs h base i = base := by
  obtain ⟨f, hf⟩ := verify_of_idle hp (List.get_mem jobs i) hidle
  have halone := hf (World.begin base) fun _ => ⟨q, ho.apart base (.refl _ _)⟩
  refine ⟨⟨?_, ?_, ?_⟩, ?_⟩
  · rw [alone, hf w hfound, halone]
  · rw [alone, hf w hfound, halone]
    exact (List.append_nil _).symm
  · rw [hf w hfound]
  · rw [left, alone, halone]
    rfl

include hd hq

/-- One job more, where the directory is there. -/
theorem step_of_after (hw : base.After (place q jobs) (left k jobs h base) done w.disk)
    (hi : i ∉ done) :
    Step k h base (jobs.get i) w
      (base.After (place q jobs) (left k jobs h base) (done ++ [i])) := by
  have hjob : jobs.get i ∈ jobs := List.get_mem jobs i
  have hat := get?_after hp hw hi
  have hag := agree_places hw
  by_cases hidle : Idle k (jobs.get i)
  · obtain ⟨hstep, hleft⟩ := idle_step hp ho hidle fun _ => ⟨q, ho.apart _ hag⟩
    refine ⟨hstep.result, hstep.calls, hw.step (place_injective hp.names) hi ?_ ?_⟩
    · rw [hstep.next]
      exact .refl _ _
    · rw [hstep.next, hleft]
      exact hat
  · obtain ⟨hnull, hfits⟩ := not_or.mp hidle
    have hfits := not_not.mp hfits
    have hout := Backend.outputDir_eq hfits.part k.backend k.config
    have hsite := opens_site ho hjob hag hw.wellFormed hq
    have hsite' := opens_site ho hjob (.refl _ _) hd hq
    have hconfined := ho.confined _ hjob
    rw [hout] at hconfined
    obtain ⟨hresult, htwins⟩ := verify_local
      (Backend.proper_resultsDir hp.verifier hp.manifest) hfits hsite hsite'
      (Backend.resultsDir_parts_ne_nil hp.verifier k.config) hp.verifier hp.script hout
      (hp.removable _) hconfined (fun below => hat _ (List.prefix_append _ below))
      (ho.followed _ hjob _ (agree_after hp hw hi)) (ho.followed _ hjob _ (.refl _ _)) w
      (World.begin base) rfl rfl
    exact step_of_twins hp.names hw hi hresult htwins

/-- A job that finds no directory for results, and makes it. -/
theorem step_of_unmade
    (hfew : d.missingAncestors (k.backend.resultsDir k.config) +
      (if k.backend.tool.wantsOutputDir then 1 else 0) ≤ h.maxMissing)
    (hun : Unmade k jobs d done) (hw : w.disk = d) (hi : ¬ Idle k (jobs.get i)) :
    Step k h base (jobs.get i) w
      (base.After (place q jobs) (left k jobs h base) (done ++ [i])) := by
  subst hw
  obtain ⟨hnone, hidle⟩ := hun
  obtain ⟨hnull, hfits⟩ := not_or.mp hi
  have hfits := not_not.mp hfits
  have hnull := Bool.eq_false_iff.mpr hnull
  have hjob : jobs.get i ∈ jobs := List.get_mem jobs i
  have hproper := Backend.proper_resultsDir hp.verifier hp.manifest
  have hout := Backend.outputDir_eq hfits.part k.backend k.config
  have hfound := ho.apart base (.refl _ _)
  have hsite := opens_site ho hjob (.refl _ _) hd hq
  have hconfined := ho.confined _ hjob
  rw [hout] at hconfined
  have hfew' : w.disk.missingAncestors (OutputDir.wanted k.backend
      (k.backend.resultsDir k.config) (jobs.get i).displayName) ≤ h.maxMissing := by
    refine le_of_eq_of_le (OutputDir.missingAncestors_wanted hproper hfits.part (fun hw => ?_)
      (Disk.route_of_made hproper hnone ho.made)) hfew
    rw [OutputDir.wanted, if_pos hw] at hnull
    exact hfits.path hnull
  obtain ⟨hresult, htwins⟩ := verify_first hproper hfits hsite
    (Backend.resultsDir_parts_ne_nil hp.verifier k.config) hp.verifier hp.script hout
    (hp.removable _) hconfined w (World.begin base) hnone ho.made (ho.fresh hnone _ hjob)
    hnull hfew' rfl
  -- nothing has been done so far that could be seen on the disk
  have hafter : base.After (place q jobs) (left k jobs h base) done base := by
    refine ⟨rfl, hd, fun j hj l _ => ?_, fun _ _ => rfl⟩
    rw [(idle_step (w := World.begin base) hp ho (hidle j hj) fun _ => ⟨q, hfound⟩).2]
  exact step_of_twins hp.names hafter (fun hmem => hi (hidle i hmem)) hresult htwins

/-- **The course of jobs that share a directory**: each comes to what it would have come to on its
own. -/
theorem course_of_opens (c : Config)
    (hfew : d.directoryAt? (k.backend.resultsDir k.config) = none →
      d.missingAncestors (k.backend.resultsDir k.config) +
        (if k.backend.tool.wantsOutputDir then 1 else 0) ≤ h.maxMissing) :
    (ofChecker k c).Course h jobs (Stage k jobs h d base q)
      (fun i => (alone k h base (jobs.get i)).1)
      (fun i => (alone k h base (jobs.get i)).2.calls) where
  step done i w hi hstage := by
    by_cases hun : Unmade k jobs d done
    · have hw := hstage.unmade hun
      by_cases hidle : Idle k (jobs.get i)
      · obtain ⟨hstep, -⟩ := idle_step hp ho hidle fun hlong =>
          absurd hlong (ho.short hun.1 _ (List.get_mem jobs i))
        refine ⟨hstep.result, hstep.calls, fun _ => hstep.next.trans hw, fun hmade => ?_⟩
        refine absurd ⟨hun.1, fun j hj => ?_⟩ hmade
        rcases List.mem_append.mp hj with hj | hj
        · exact hun.2 j hj
        · rw [List.mem_singleton.mp hj]
          exact hidle
      · have hstep := step_of_unmade hp ho hd hq (hfew hun.1) hun hw hidle
        refine ⟨hstep.result, hstep.calls, fun hun' => absurd ?_ hidle, fun _ => hstep.next⟩
        exact hun'.2 i (List.mem_append_right done List.mem_cons_self)
    · have hstep := step_of_after hp ho hd hq (hstage.made hun) hi
      refine ⟨hstep.result, hstep.calls, fun hun' => absurd ⟨hun'.1, fun j hj => ?_⟩ hun,
        fun _ => hstep.next⟩
      exact hun'.2 j (List.mem_append_left [i] hj)
  same done done' d₁ d₂ hperm h₁ h₂ := by
    have hiff : Unmade k jobs d done ↔ Unmade k jobs d done' :=
      and_congr_right fun _ => forall_congr' fun j => by rw [hperm.mem_iff]
    by_cases hun : Unmade k jobs d done
    · rw [h₁.unmade hun, h₂.unmade (hiff.mp hun)]
      exact ⟨rfl, fun _ => rfl⟩
    · exact (h₁.made hun).same (h₂.made fun hun' => hun (hiff.mpr hun')) hperm

end Opens

section Vacant

variable {z : Location} {root : Path} {name : String} {d' : Disk}

/-- What agrees with a new directory but for what is in it has lost nothing. -/
theorem extends_of_agree (hd : d.WellFormed) (hfree : d.get? (z ++ [name]) = none)
    (hag : (d.insert (z ++ [name]) .directory).Agree (jobs.map (placeIn (z ++ [name]))) d') :
    Disk.Extends d d' := by
  intro l e he
  rw [hag.outside l, Disk.extends_insert hfree .directory l e he]
  intro loc hloc hl
  obtain ⟨job, -, rfl⟩ := List.mem_map.mp hloc
  rw [hd.vacant hfree l ((List.prefix_append _ _).trans hl)] at he
  cases he

theorem get?_place_of_vacant (hd : d.WellFormed) (hfree : d.get? (z ++ [name]) = none) (job : Job) :
    (d.insert (z ++ [name]) .directory).get? (placeIn (z ++ [name]) job) = none := by
  have hne : placeIn (z ++ [name]) job ≠ z ++ [name] := fun heq =>
    Disk.not_within_self (z ++ [name]) job.displayName ⟨[], (List.append_nil _).trans heq⟩
  unfold placeIn at hne ⊢
  rw [Disk.get?_insert (Disk.concat_ne_nil _ _), if_neg hne]
  exact hd.vacant hfree _ (List.prefix_append _ _)

/-- The place of a job is none of the others. -/
theorem not_prefix_of_mem_erase (hn : (jobs.map Job.displayName).Nodup) {loc : Location}
    (hloc : loc ∈ (jobs.map (placeIn q)).erase (placeIn q job)) : ¬ loc <+: placeIn q job := by
  intro hl
  have hnodup : (jobs.map (placeIn q)).Nodup := by
    have hmapped : ((jobs.map Job.displayName).map fun n => q ++ [n]).Nodup :=
      hn.map fun n n' heq => (List.cons.inj (List.append_cancel_left heq)).1
    rw [List.map_map] at hmapped
    exact hmapped
  obtain ⟨hne, hmem⟩ := hnodup.mem_erase_iff.mp hloc
  obtain ⟨other, -, rfl⟩ := List.mem_map.mp hmem
  refine hne ?_
  unfold placeIn at hl ⊢
  rw [Disk.name_of_prefix hl List.prefix_rfl]

/-- Where no results have been kept so far, in a project that is there, nothing but the names and
the processes can get in the way. -/
theorem opens_of_vacant (hp : Placed k jobs h) (hd : d.WellFormed)
    (hz : d.directoryAt? k.config.projectDir = some z)
    (hfree : d.get? (z ++ [k.backend.tool.outputRoot]) = none)
    (hnull : Disk.hasNull (k.backend.resultsDir k.config).text = false)
    (hfits : (k.backend.resultsDir k.config).text.utf8ByteSize ≤ Disk.maxPath)
    (hshort : ∀ job ∈ jobs, ¬ Disk.Overlong (k.backend.resultsDir k.config) job.displayName)
    (hconfined : ∀ job ∈ jobs, ∀ words,
      k.backend.invocation k.config job (k.backend.outputDir k.config job) = .ok words →
      Confined h (k.command words).call (placeIn (z ++ [k.backend.tool.outputRoot]) job)) :
    Opens k jobs h d (d.insert (z ++ [k.backend.tool.outputRoot]) .directory)
      (z ++ [k.backend.tool.outputRoot]) := by
  have hproject : k.config.projectDir.Proper := hp.manifest.parent
  have hroot := hp.verifier.fits_outputRoot hnull hfits
  have hnull' := hnull
  rw [Backend.resultsDir_eq hp.verifier] at hnull'
  refine ⟨?_, fun d' hag => ?_, fun job hjob d' hag => ?_,
    fun _ job _ => get?_place_of_vacant hd hfree job, fun _ => hshort, hconfined⟩
  · have hfind := Disk.find_child hproject hroot hnull' hz .itself (.inl rfl)
    unfold Disk.foundAt at hfind
    rw [hfree] at hfind
    rw [Backend.resultsDir_eq hp.verifier]
    exact Disk.makeDirectories_of_ensureDirectory (Disk.ensureDirectory_of_vacant hfind)
  · have hthere := Disk.directoryAt?_mono hproject (extends_of_agree hd hfree hag) hag.here hz
    rw [Backend.resultsDir_eq hp.verifier]
    refine Disk.directoryAt?_child hproject hroot hnull' hthere ?_
    rw [hag.outside, Disk.get?_insert_self (Disk.concat_ne_nil _ _)]
    intro loc hloc
    obtain ⟨job, -, rfl⟩ := List.mem_map.mp hloc
    exact Disk.not_within_self _ _
  · refine Disk.followed_of_plain fun t => ?_
    have hat := hag.outside _ fun loc hloc => not_prefix_of_mem_erase hp.names hloc
    unfold placeIn at hat
    rw [hat]
    have hvacant := get?_place_of_vacant hd hfree job
    unfold placeIn at hvacant
    rw [hvacant]
    exact nofun

end Vacant

/-- **The order of the jobs does not matter**: taken up in any order, jobs that keep to their places
come to the same suite, start the same processes and leave the same disk as one after the other. -/
theorem runInOrder_independent (hp : Placed k jobs h) (c : Config) {p : Pool}
    (hpool : ∀ n, p ≠ .closed n) (hd : w.disk.WellFormed)
    (hhere : w.disk.get? w.disk.here = some .directory) (hs : Settles k jobs h w.disk) :
    (ofChecker k c).Independent p jobs h w := by
  have hproper := proper_ofChecker k c
  have hroot := Backend.proper_resultsDir hp.verifier hp.manifest
  cases hs with
  | blocked f hb =>
    have hstuck := stuck_of_hopeless hp
      (fun hnull => Disk.not_directoryAt_of_blocked hroot hnull hb) (.inr ⟨f, hb⟩)
    obtain ⟨_, _, hc⟩ := course_of_stuck hp.verifier c hstuck
    exact hc.independent hproper rfl hpool
  | opens base q ho =>
    by_cases hdeep : w.disk.directoryAt? (k.backend.resultsDir k.config) = none ∧
      h.maxMissing < w.disk.missingAncestors (k.backend.resultsDir k.config) +
        (if k.backend.tool.wantsOutputDir then 1 else 0)
    · have hstuck := stuck_of_hopeless hp (fun _ => hdeep.1) (.inl hdeep.2)
      obtain ⟨_, _, hc⟩ := course_of_stuck hp.verifier c hstuck
      exact hc.independent hproper rfl hpool
    · obtain ⟨hbase, hq⟩ := opens_base hp ho hd hhere
      have hc := course_of_opens hp ho hbase hq c fun hnone =>
        Nat.le_of_not_lt fun hlt => hdeep ⟨hnone, hlt⟩
      refine hc.independent hproper ⟨fun _ => rfl, fun hmade => ?_⟩ hpool
      -- the directory is there, so that there is nothing to be made
      cases hfound : w.disk.directoryAt? (k.backend.resultsDir k.config) with
      | none => exact absurd ⟨hfound, fun i hi => absurd hi List.not_mem_nil⟩ hmade
      | some q' =>
        rw [Disk.eq_of_makeDirectories hroot hfound ho.made] at hbase ⊢
        exact .nil hbase

/-! ## KLEE where nothing has been kept -/

def emptyDisk : Disk := ⟨[], []⟩

def secondJob : Job := ⟨"u", "u", ⟨.relative, []⟩⟩

theorem emptyDisk_wellFormed : emptyDisk.WellFormed where
  keys := List.nodup_nil
  keyed e he := absurd he List.not_mem_nil
  parents loc name h := by
    refine absurd ?_ h
    unfold Disk.get?
    exact if_neg (Disk.concat_ne_nil loc name)

theorem confined_saying (err : Text.Bytes) (call : Call) (loc : Location) :
    Confined (Checker.saying err) call loc where
  beside _ d _ := .refl loc d
  plain _ _ hd := hd.plain
  alike _ _ _ _ _ _ hsame := ⟨rfl, hsame⟩

theorem placed_sample (hn : (jobs.map Job.displayName).Nodup)
    (hparts : ∀ job ∈ jobs, Path.IsPart job.displayName ∧ job.displayName ≠ "..") :
    Placed Checker.sampleKlee jobs (Checker.saying []) where
  verifier := Checker.sampleKlee_isVerifier
  script := rfl
  manifest := Path.proper_parse _
  removable _ := rfl
  names := hn
  parts := hparts

theorem emptyDisk_project :
    emptyDisk.directoryAt? Checker.sampleKlee.config.projectDir = some [] := by
  have hproject : Checker.sampleKlee.config.projectDir = Disk.hereDir := by decide
  rw [hproject]
  exact Disk.directoryAt?_hereDir emptyDisk

theorem opens_sample (hp : Placed Checker.sampleKlee jobs (Checker.saying []))
    (hshort : ∀ job ∈ jobs, ¬ Disk.Overlong
      (Checker.sampleKlee.backend.resultsDir Checker.sampleKlee.config) job.displayName) :
    Opens Checker.sampleKlee jobs (Checker.saying []) emptyDisk Checker.sampleDisk ["kleeout"] :=
  opens_of_vacant hp emptyDisk_wellFormed emptyDisk_project rfl (by decide) (by decide) hshort
    fun _ _ _ _ => confined_saying _ _ _

/-- Two jobs, whose directory has to be made. -/
theorem two_jobs_independent :
    (ofChecker Checker.sampleKlee (Config.standard 2)).Independent .absent
      [Checker.sampleJob, secondJob] (Checker.saying []) (World.begin emptyDisk) := by
  have hp : Placed Checker.sampleKlee [Checker.sampleJob, secondJob] (Checker.saying []) := by
    exact placed_sample (by decide) (by decide)
  refine runInOrder_independent hp (Config.standard 2) Pool.absent_ne_closed emptyDisk_wellFormed
    rfl (.opens _ _ (opens_sample hp fun job hjob hlong => ?_))
  have hshort : job.displayName.utf8ByteSize ≤ Disk.maxName := by
    rcases List.mem_pair.mp hjob with rfl | rfl <;> decide
  exact Nat.not_le_of_lt hlong.long hshort

/-- A job whose name has one byte more than a name may have. -/
def longJob : Job :=
  ⟨String.ofList (List.replicate (Disk.maxName + 1) 'a'), "t", ⟨.relative, ["t.bc"]⟩⟩

theorem utf8ByteSize_replicate (n : Nat) :
    (String.ofList (List.replicate n 'a')).utf8ByteSize = n := by
  induction n with
  | zero => rfl
  | succ n ih =>
    rw [List.replicate_succ, String.ofList_cons, String.utf8ByteSize_append, ih,
      String.utf8ByteSize_singleton, Nat.add_comm]
    rfl

theorem longJob_isPart : Path.IsPart longJob.displayName ∧ longJob.displayName ≠ ".." := by
  have hlist : longJob.displayName.toList = List.replicate (Disk.maxName + 1) 'a' :=
    String.toList_ofList
  have hother : ∀ s : String, s.toList.length < Disk.maxName + 1 → longJob.displayName ≠ s := by
    rintro s hs heq
    rw [← heq, hlist, List.length_replicate] at hs
    exact Nat.lt_irrefl _ hs
  refine ⟨⟨hother _ (by decide), hother _ (by decide), fun hslash => ?_⟩, hother _ (by decide)⟩
  rw [hlist] at hslash
  exact absurd (List.eq_of_mem_replicate hslash) (by decide)

theorem longJob_noNull : Disk.hasNull longJob.displayName = false := by
  rw [Disk.hasNull, Bool.eq_false_iff, ne_eq, List.contains_iff_mem, longJob,
    String.toList_ofList]
  exact fun hnull => absurd (List.eq_of_mem_replicate hnull) (by decide)

/-- KLEE's directory for results. -/
def kleeDir : Path := ⟨.relative, ["kleeout"]⟩

theorem resultsDir_sample :
    Checker.sampleKlee.backend.resultsDir Checker.sampleKlee.config = kleeDir := by
  decide

theorem longJob_text : (kleeDir.child longJob.displayName).text =
    "kleeout" ++ "/" ++ longJob.displayName := by
  have hparent : (kleeDir.child longJob.displayName).parent.parts ≠ [] := by
    rw [Path.parent_child]
    exact List.cons_ne_nil _ _
  rw [Path.text_of_parent hparent, Path.parent_child, Path.name_child]
  rfl

theorem longJob_overlong : Disk.Overlong kleeDir longJob.displayName where
  noNull := by
    have hname := longJob_noNull
    rw [Disk.hasNull, Bool.eq_false_iff, ne_eq, List.contains_iff_mem] at hname ⊢
    rw [longJob_text, String.toList_append, List.mem_append, not_or]
    exact ⟨by decide, hname⟩
  path := by
    rw [longJob_text, String.utf8ByteSize_append, longJob, utf8ByteSize_replicate]
    decide
  long := by
    rw [longJob, utf8ByteSize_replicate]
    decide

/-- The launch of this job where the directory for results is not there yet. -/
def longLaunch (w : World) : Checker.Launch where
  output := kleeDir.child longJob.displayName
  words := "klee" :: Klee.arguments Checker.sampleKlee.config longJob
    (kleeDir.child longJob.displayName) []
  prepared := { w with started := w.started ++ [longJob], disk := Checker.sampleDisk }
  disk := Checker.sampleDisk
  code := 0
  stdout := []
  stderr := []
  overruns := false

theorem find_kleeDir : emptyDisk.find .itself kleeDir.text = .ok (.vacant [] "kleeout") :=
  Disk.find_nothing Disk.proper_hereDir (by decide) (by decide)
    (Disk.directoryAt?_hereDir emptyDisk) (by decide) .itself

theorem proper_kleeDir : kleeDir.Proper := by
  rw [← resultsDir_sample]
  exact Backend.proper_resultsDir Checker.sampleKlee_isVerifier (Path.proper_parse _)

theorem launches_longJob (hw : w.disk = emptyDisk) :
    Checker.sampleKlee.Launches longJob (Checker.saying []) w (longLaunch w) where
  prepared := by
    have hk := Checker.sampleKlee_isVerifier
    have hout := Backend.outputDir_eq longJob_isPart.1 Checker.sampleKlee.backend
      Checker.sampleKlee.config
    rw [resultsDir_sample] at hout
    have hmissing := Disk.find_child_of_route_error proper_kleeDir longJob_isPart.1
      longJob_overlong.path (Disk.route_of_vacant proper_kleeDir find_kleeDir)
    have hlook : ∀ aim, w.disk.look aim (kleeDir.child longJob.displayName).text = .ok none := by
      intro aim
      rw [hw]
      exact OutputDir.look_of_absence rfl (hmissing aim)
    have hensure := Disk.ensureDirectory_of_vacant find_kleeDir
    rw [← hw] at hensure
    have hclear := OutputDir.clear_of_absent (h := Checker.saying [])
      (w := { w with started := w.started ++ [longJob] }) (hlook .target) (hlook .itself)
    rw [OutputDir.prepare_of_clear hk hout hclear (hlook .target)]
    have hmake := OutputDir.makeDirectories_run (h := Checker.saying [])
      (w := { w with started := w.started ++ [longJob] }) (by decide) hensure
    refine (Action.bind_of_ok hmake _).trans ?_
    rw [hw]
    rfl
  built := rfl
  limited := by
    intro h
    cases h
  ended := rfl

/-- As the first job it is verified. -/
theorem longJob_first (hw : w.disk = emptyDisk) :
    ∃ o, ((Checker.sampleKlee.verify longJob).run (Checker.saying []) w).1 = .ok o ∧
      o.error = none := by
  have hparts : ∀ part ∈ Counterexample.fixedParts (longLaunch w).output,
      Disk.hasNull part = false := by
    intro part hpart
    rcases List.mem_pair.mp ((List.takeWhile_prefix _).subset hpart) with rfl | rfl
    · decide
    · exact longJob_noNull
  obtain ⟨o, ho, -, -, -, -, herror⟩ :=
    Checker.verify_returns Checker.sampleKlee_isVerifier (launches_longJob hw)
      (Checker.not_aborts rfl nofun hparts)
  exact ⟨o, ho, herror⟩

/-- Later it is not. -/
theorem longJob_later (hp : Placed Checker.sampleKlee jobs (Checker.saying []))
    (hjob : longJob ∈ jobs) (hw : w.disk.directoryAt? kleeDir = some q) :
    ∃ f, ((Checker.sampleKlee.verify longJob).run (Checker.saying []) w).1 = .error f := by
  have hlong := longJob_overlong
  rw [← resultsDir_sample] at hlong hw
  obtain ⟨f, hf⟩ := verify_of_idle hp hjob
    (.inr fun hfits => Nat.not_le_of_lt hlong.long (hfits.short hlong.noNull))
  exact ⟨f, congrArg Prod.fst (hf w fun _ => ⟨q, hw⟩)⟩

/-- Another job leaves the directory for results. -/
theorem directoryAt?_of_sampleJob (hw : w.disk = emptyDisk) :
    ((Checker.sampleKlee.verify Checker.sampleJob).run (Checker.saying []) w).2.disk.directoryAt?
      kleeDir = some ["kleeout"] := by
  have hp : Placed Checker.sampleKlee [Checker.sampleJob] (Checker.saying []) := by
    exact placed_sample (by decide) (by decide)
  have ho := opens_sample hp fun job hjob hlong => by
    rcases List.mem_singleton.mp hjob with rfl
    exact Nat.not_le_of_lt hlong.long (by decide)
  obtain ⟨hbase, hq⟩ := opens_base hp ho emptyDisk_wellFormed rfl
  have hfew : emptyDisk.missingAncestors kleeDir = 0 := by
    rw [Disk.missingAncestors, Disk.ensureDirectory_of_vacant find_kleeDir]
  have hun : Unmade Checker.sampleKlee [Checker.sampleJob] emptyDisk [] := by
    refine ⟨?_, fun _ h => absurd h List.not_mem_nil⟩
    rw [resultsDir_sample, Disk.directoryAt?,
      Disk.find_target_of_vacant proper_kleeDir find_kleeDir]
  have hstep := step_of_unmade (w := w) (i := ⟨0, Nat.one_pos⟩) hp ho hbase hq ?_ hun hw ?_
  · have hfound := ho.apart _ (agree_places hstep.next)
    rw [resultsDir_sample] at hfound
    exact hfound
  · rw [resultsDir_sample, hfew]
    decide
  · refine not_or.mpr ⟨by decide, not_not.mpr ⟨?_, by decide, fun _ => by decide, fun _ => ?_⟩⟩
    · exact (hp.parts _ List.mem_cons_self).1
    · rw [resultsDir_sample]
      decide

/-- **A long name makes the order matter.** Everything that `runInOrder_independent` asks for is
given but `Opens.short`: the job with the long name is verified before the other, and fails after
it. -/
theorem long_name_order :
    Placed Checker.sampleKlee [longJob, Checker.sampleJob] (Checker.saying []) ∧
      emptyDisk.WellFormed ∧
      (∀ before call d, (Checker.saying []).behave before call d = (d, .ended 0 [] [] false)) ∧
      ¬ (ofChecker Checker.sampleKlee (Config.standard 2)).Independent .absent
        [longJob, Checker.sampleJob] (Checker.saying []) (World.begin emptyDisk) := by
  have hp : Placed Checker.sampleKlee [longJob, Checker.sampleJob] (Checker.saying []) := by
    refine placed_sample ?_ fun job hjob => ?_
    · refine List.nodup_cons.mpr ⟨fun hmem => ?_, List.nodup_singleton _⟩
      have hlong := longJob_overlong.long
      rw [List.mem_singleton.mp hmem] at hlong
      exact absurd hlong (by decide)
    · rcases List.mem_pair.mp hjob with rfl | rfl
      · exact longJob_isPart
      · decide
  refine ⟨hp, emptyDisk_wellFormed, fun _ _ _ => rfl, fun hind => ?_⟩
  have hs := proper_ofChecker Checker.sampleKlee (Config.standard 2)
  have hperm : [1, 0].Perm (List.finRange [longJob, Checker.sampleJob].length) :=
    List.Perm.swap 0 1 []
  obtain ⟨suite, p₁, p₂, w₁, w₂, hr₁, hr₂, -, -⟩ := hind 2 [1, 0] hperm
  -- one after the other, the job with the long name comes first
  have haccounts₁ := accounts_of_run hs (.of_not_closed Pool.absent_ne_closed) hr₁
  obtain ⟨w₃, os₁, hd₁, ht₁, -, hat₁⟩ := haccounts₁.turns
  obtain ⟨o, hfirst, hnone⟩ := longJob_first (disk_of_deeds hd₁)
  have htakes : Takes .absent 2 [longJob, Checker.sampleJob] :=
    .of_not_closed Pool.absent_ne_closed
  obtain ⟨_, _, w₄, hrun, haccounts⟩ := runInOrder_run hs htakes hperm
    (Checker.saying []) (World.begin emptyDisk)
  rw [hr₂] at hrun
  cases hrun
  -- in the other order, it comes after a job that has made the directory
  obtain ⟨w₅, os₂, hd₂, ht₂, -, hat₂⟩ := haccounts.turns
  obtain ⟨o₁, _, _, rfl, hset₁, -⟩ := ht₁.uncons
  obtain ⟨_, _, w₆, rfl, -, hd₃, rest⟩ := ht₂.uncons
  obtain ⟨o₂, _, _, rfl, hset₂, -⟩ := rest.uncons
  have hfound := directoryAt?_of_sampleJob (disk_of_deeds hd₂)
  obtain ⟨f, hlater⟩ := longJob_later hp List.mem_cons_self
    ((congrArg (Disk.directoryAt? · kleeDir) (disk_of_deeds hd₃)).trans hfound)
  have hone : suite.outcomes[0]? = some o₁ := hat₁ (0, o₁) List.mem_cons_self
  have htwo : suite.outcomes[0]? = some o₂ :=
    hat₂ (0, o₂) (List.mem_cons_of_mem _ List.mem_cons_self)
  rw [hone, Option.some.injEq] at htwo
  rw [htwo, hset₂.raised f hlater] at hset₁
  have herror := hset₁.returned o hfirst
  rw [← herror] at hnone
  cases hnone

end Scheduler

end Assay
