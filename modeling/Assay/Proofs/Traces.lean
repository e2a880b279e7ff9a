import Assay.Proofs.Frames
import Assay.Proofs.Footprint

/-!
# What a job leaves on the disk

Three things change the disk while a job is verified: its place is prepared, its process runs, and
the command is written down in the script. `leaves_verify` says so for every job, however it ends.
If there is an outcome, all three have been done, and its counterexamples are paths of files that
are in the place on the disk that is left.
-/

namespace Assay

open Assay.Action (Keeps Leads Yields logFree_deeds)

namespace Disk

variable {d d' : Disk} {loc l q : Location} {e : Entry} {f : Found} {p : Path}

theorem insert_eq_erase_insert (d : Disk) (loc : Location) (e : Entry) :
    d.insert loc e = (d.erase loc).insert loc e := by
  have hsame : without (· == keyOf loc) (without (· == keyOf loc) d.entries) =
      without (· == keyOf loc) d.entries := by
    unfold without
    rw [List.filter_filter]
    simp only [Bool.and_self]
  unfold insert erase
  dsimp only
  rw [hsame]

/-- What is put in the place of something that is no directory keeps the tree. -/
theorem WellFormed.replace (hd : d.WellFormed) (hget : d.get? loc = some e)
    (he : e ≠ .directory) (e' : Entry) : (d.insert loc e').WellFormed := by
  have hnot : d.get? loc ≠ some .directory := by
    rw [hget, ne_eq, Option.some.injEq]
    exact he
  rcases List.eq_nil_or_concat loc with rfl | ⟨parent, name, rfl⟩
  · exact absurd (get?_root d) hnot
  · rw [List.concat_eq_append] at hget hnot ⊢
    have hparent : d.get? parent = some .directory :=
      hd.parents parent name (by rw [hget]; exact Option.some_ne_none _)
    have hne : parent ≠ parent ++ [name] := fun h =>
      List.cons_ne_nil _ _ (List.self_eq_append_right.mp h)
    rw [insert_eq_erase_insert]
    refine (hd.erase (hd.below hnot)).insert ?_ ?_ e'
    · rw [get?_erase (concat_ne_nil parent name), if_pos rfl]
    · by_cases hnil : parent = []
      · rw [hnil, get?_root]
      · rw [get?_erase hnil, if_neg hne, hparent]

/-! ## The script -/

/-- Nothing has changed, or the script has been written: it was there, or nothing was. -/
inductive Recorded (script : Option Path) (d : Disk) : Disk → Prop where
  | nothing : Recorded script d d
  | rewritten {p : Path} {loc : Location} {old : Text.Bytes} (hp : p ∈ script)
    (hf : d.find .content p.text = .ok (.entry loc (.file old))) (content : Text.Bytes) :
    Recorded script d (d.insert loc (.file content))
  | added {p : Path} {parent : Location} {name : String} (hp : p ∈ script)
    (hf : d.find .content p.text = .ok (.vacant parent name)) (content : Text.Bytes) :
    Recorded script d (d.insert (parent ++ [name]) (.file content))

variable {script : Option Path}

theorem recorded_extend {content : Text.Bytes} (hp : p ∈ script)
    (he : d.extend p.text content = .ok d') : Recorded script d d' := by
  unfold extend alter at he
  split at he
  case h_1 hf =>
    cases he
    exact .rewritten hp hf _
  case h_3 hf =>
    cases he
    exact .added hp hf _
  all_goals cases he

/-- A file is put where the script is, in the place of a file at most. -/
theorem Recorded.cases (hr : Recorded script d d') :
    d' = d ∨ ∃ p ∈ script, ∃ f content, d.find .content p.text = .ok f ∧
      (∀ e, d.get? f.location = some e → ∃ old, e = .file old) ∧
      d' = d.insert f.location (.file content) := by
  cases hr with
  | nothing => exact .inl rfl
  | @rewritten p loc old hp hf content =>
    refine .inr ⟨p, hp, _, content, hf, fun e he => ⟨old, ?_⟩, rfl⟩
    have hfile := get?_of_find Entry.noConfusion hf
    exact Option.some.inj (he.symm.trans hfile)
  | @added p parent name hp hf content =>
    refine .inr ⟨p, hp, _, content, hf, fun e he => ?_, rfl⟩
    have hnone : d.get? (Found.vacant parent name).location = none := get?_of_vacant hf
    rw [hnone] at he
    cases he

theorem Recorded.here (hr : Recorded script d d') : d'.here = d.here := by
  cases hr <;> rfl

theorem Recorded.keepsWays (hr : Recorded script d d') : KeepsWays d d' := by
  rcases hr.cases with rfl | ⟨p, -, f, content, -, hold, rfl⟩
  · exact (Extends.refl _).keepsWays
  · exact keepsWays_insert hold _

theorem Recorded.wellFormed (hr : Recorded script d d') (hd : d.WellFormed)
    (hhere : d.get? d.here = some .directory) : d'.WellFormed := by
  cases hr with
  | nothing => exact hd
  | rewritten hp hf content =>
    exact hd.replace (get?_of_find Entry.noConfusion hf) Entry.noConfusion _
  | added hp hf content => exact hd.insert (get?_of_vacant hf) (directory_of_vacant hd hhere hf) _

end Disk

namespace Command

variable {c : Command} {h : Host} {w w' : World}

theorem leads_noteOutput (c : Command) (output : Capture) :
    Leads (Disk.Recorded c.script) (c.note output) := by
  have hrefl : ∀ d, Disk.Recorded c.script d d := fun _ => .nothing
  unfold note
  split
  case h_2 => exact .of_keeps hrefl (Keeps.pure ())
  case h_1 path hpath =>
    refine .before (.attempt ?_) fun r => ?_
    · refine .after hrefl (Action.keeps_refuseNull _) fun _ => ?_
      exact .changeDisk hrefl fun d d' he => Disk.recorded_extend (Option.mem_def.mpr hpath) he
    · split
      · exact Keeps.pure ()
      · exact (Action.keeps_deeds_log _ _ _).comp Prod.fst
      · exact Keeps.fail _

theorem keeps_disk_conclude (c : Command) (program : String) (output : Capture) :
    Keeps World.disk (c.conclude program output) := by
  refine Keeps.ite ((Action.keeps_deeds_log _ _ _).comp Prod.fst) (Keeps.ite ?_ (Keeps.pure ()))
  exact Keeps.ite (Keeps.fail _) (Keeps.fail _)

/-- What can come of a command: its process has not been asked for, the call has not been carried
out, or the process has ended. Only then is there a result, and only then is the command written
down. -/
inductive Ran (c : Command) (h : Host) (w : World) : Except Fault Capture → Disk → Prop where
  | unstarted (f : Fault) : Ran c h w (.error f) w.disk
  | unended {d : Disk} {e : Ending} (hb : h.behave w.calls c.call w.disk = (d, e))
    (f : Fault) : Ran c h w (.error f) d
  | ended {d d' : Disk} {code : Int} {out err : Text.Bytes} {overruns : Bool}
    (hl : c.limit ≠ some .nothing)
    (hb : h.behave w.calls c.call w.disk = (d, .ended code out err overruns))
    (hr : Disk.Recorded c.script d d') (r : Except Fault Capture) : Ran c h w r d'

theorem ran_run (c : Command) (h : Host) (w : World) :
    Ran c h w (c.run.run h w).1 (c.run.run h w).2.disk := by
  unfold run
  split
  · exact .unstarted _
  case h_2 program arguments hw =>
    obtain ⟨_, w₁, hr, -⟩ := (announce_returns c program).run h w
    have hd := (keeps_announce Action.logFree_deeds c program).of_run hr
    have hdisk := disk_of_deeds hd
    have hcalls := calls_of_deeds hd
    rw [Action.bind_of_ok hr]
    by_cases hl : c.limit = some .nothing
    · have hlimit : c.needLimit = .error (.gap .limit) := if_pos hl
      rw [hlimit, Action.bind_of_error (Action.ofExcept_run _ h w₁), hdisk]
      exact .unstarted _
    · have hlimit : c.needLimit = .ok () := if_neg hl
      rw [hlimit, Action.bind_of_ok (Action.ofExcept_run _ h w₁)]
      rcases hb : h.behave w₁.calls c.call w₁.disk with ⟨d, f | f | ⟨code, out, err, overruns⟩⟩
      · rw [Action.bind_of_ok (spawn_run hb)]
        rw [hcalls, hdisk] at hb
        exact .unended hb _
      · rw [Action.bind_of_ok (spawn_run hb)]
        rw [hcalls, hdisk] at hb
        exact .unended hb _
      · rw [Action.bind_of_ok (spawn_run hb)]
        rw [hcalls, hdisk] at hb
        refine .ended hl hb ?_ _
        have hnote := (leads_noteOutput c (c.capture code out err overruns)).before fun _ =>
          (keeps_disk_conclude c program (c.capture code out err overruns)).bind fun _ =>
            Keeps.pure (c.capture code out err overruns)
        exact hnote h { w₁ with disk := d, calls := w₁.calls ++ [c.call] }

end Command

namespace OutputDir

/-- A place that has been prepared is the job's. -/
theorem yields_prepare (b : Backend) (c : Config) (job : Job) :
    Yields (prepare b c job) (· = b.outputDir c job) := by
  unfold prepare
  split
  · exact Yields.pure rfl
  · refine Yields.bind fun _ => Yields.bind fun there => ?_
    split
    · exact Yields.fail _
    · exact Yields.bind fun _ => Yields.pure rfl

end OutputDir

/-! ## Counterexamples -/

namespace Counterexample

variable {output : Path} {tail : String} {b : Backend} {c : Config} {h : Host} {w w' : World}

/-- For the file of this name the input at this path is collected: if all inputs are wanted the file
itself, and otherwise the input of the test that the file tells the error of. -/
def HasInput (c : Config) (output : Path) (name : String) (p : Path) : Prop :=
  Text.startsWith testHead name = true ∧
    if 1 < c.replay then Text.endsWith inputTail name = true ∧ p = output.child name
    else Text.endsWith errorTail name = true ∧ p = inputOf (output.child name)

/-- The input at this path is collected from the disk. -/
def Collects (b : Backend) (c : Config) (output : Path) (d : Disk) (p : Path) : Prop :=
  b = .klee ∧ Disk.hasNull output.text = false ∧
    ∃ n ∈ d.list output.text, HasInput c output n p

theorem mem_sort {p : Path} {ps : List Path} : p ∈ Path.sort ps ↔ p ∈ ps :=
  (List.mergeSort_perm ps Path.le).mem_iff

theorem matching_ok {ps : List Path} (hm : (matching output tail).run h w = (.ok ps, w'))
    (p : Path) :
    p ∈ ps ↔ Disk.hasNull output.text = false ∧ ∃ n ∈ w.disk.list output.text,
      (Text.startsWith testHead n = true ∧ Text.endsWith tail n = true) ∧ p = output.child n := by
  unfold matching at hm
  split at hm
  case isTrue => cases hm
  case isFalse =>
    split at hm
    case isTrue hnull =>
      cases hm
      rw [hnull]
      exact ⟨fun hp => absurd hp List.not_mem_nil, fun hp => absurd hp.1 Bool.noConfusion⟩
    case isFalse hnull =>
      rw [Action.bind_of_ok (Action.disk_run h w)] at hm
      cases hm
      rw [mem_sort, List.mem_map, Bool.eq_false_iff.mpr hnull]
      constructor
      · rintro ⟨n, hn, rfl⟩
        obtain ⟨hlist, hname⟩ := List.mem_filter.mp hn
        exact ⟨rfl, n, hlist, Bool.and_eq_true_iff.mp hname, rfl⟩
      · rintro ⟨-, n, hlist, hname, rfl⟩
        exact ⟨n, List.mem_filter.mpr ⟨hlist, Bool.and_eq_true_iff.mpr hname⟩, rfl⟩

/-- **What is collected.** -/
theorem collect_ok {found : List Path} (hc : (collect b c output).run h w = (.ok found, w'))
    (p : Path) : p ∈ found ↔ Collects b c output w.disk p := by
  unfold collect at hc
  unfold Collects HasInput
  split at hc
  case h_2 hb =>
    cases hc
    exact ⟨fun hp => absurd hp List.not_mem_nil, fun hp => absurd hp.1 hb⟩
  case h_1 =>
    split at hc
    case isTrue hall =>
      simp only [if_pos hall, true_and, matching_ok hc p, and_assoc]
    case isFalse hall =>
      simp only [if_neg hall, true_and]
      obtain ⟨errors, w₁, hfailures, hsort⟩ := Action.bind_ok_iff.mp hc
      obtain ⟨found', w₂, hmatching, hlog⟩ := Action.bind_ok_iff.mp hfailures
      cases hsort
      cases hlog
      rw [mem_sort, List.mem_map]
      constructor
      · rintro ⟨e, he, rfl⟩
        obtain ⟨hnull, n, hn, ⟨hhead, htail⟩, rfl⟩ := (matching_ok hmatching e).mp he
        exact ⟨hnull, n, hn, hhead, htail, rfl⟩
      · rintro ⟨hnull, n, hn, hhead, htail, rfl⟩
        exact ⟨_, (matching_ok hmatching _).mpr ⟨hnull, n, hn, ⟨hhead, htail⟩, rfl⟩, rfl⟩

end Counterexample

namespace Checker

variable {k : Checker} {job : Job} {h : Host} {w w' : World} {output : Path} {capture : Capture}
  {o : Outcome}

/-- The counterexamples of an outcome have been collected from the disk. -/
theorem evaluate_found (hr : (k.evaluate job output capture).run h w = (.ok o, w')) (x : String) :
    x ∈ o.counterexamples ↔
      ∃ p, Counterexample.Collects k.backend k.config output w.disk p ∧ x = p.text := by
  have hdisk := disk_of_deeds ((k.keeps_deeds_evaluate job output capture).of_run hr)
  rw [evaluate_eq] at hr
  obtain ⟨_, w₁, -, hr⟩ := Action.bind_ok_iff.mp hr
  obtain ⟨_, w₂, -, hr⟩ := Action.bind_ok_iff.mp hr
  -- all that stands before the counterexamples are collected
  obtain ⟨_, w₃, -, hr⟩ := Action.bind_ok_iff.mp hr
  obtain ⟨_, w₄, -, hr⟩ := Action.bind_ok_iff.mp hr
  obtain ⟨_, w₅, -, hr⟩ := Action.bind_ok_iff.mp hr
  obtain ⟨_, w₆, -, hr⟩ := Action.bind_ok_iff.mp hr
  obtain ⟨found, w₇, hcollect, hr⟩ := Action.bind_ok_iff.mp hr
  cases hr
  have hlast := disk_of_deeds ((Counterexample.keeps_collect logFree_deeds _ _ _).of_run hcollect)
  rw [← hdisk, hlast, List.mem_map]
  constructor
  · rintro ⟨p, hp, rfl⟩
    exact ⟨p, (Counterexample.collect_ok hcollect p).mp hp, rfl⟩
  · rintro ⟨p, hp, rfl⟩
    exact ⟨p, (Counterexample.collect_ok hcollect p).mpr hp, rfl⟩

/-! ## One job -/

/-- What can come of a job: its process has not been asked for, the call has not been carried out, or
the process has ended. Only then is there an outcome, and its counterexamples are read off the disk
that is left. -/
inductive Leaves (k : Checker) (job : Job) (h : Host) (w : World) :
    Except Fault Outcome → Disk → Prop where
  | unstarted {d₁ d' : Disk} (hc : Disk.Cleared (k.backend.outputDir k.config job) w.disk d₁)
    (hs : Disk.Sprouts (k.backend.outputDir k.config job) d₁ d') (f : Fault) :
    Leaves k job h w (.error f) d'
  | unended {output : Path} {w₁ : World} {words : List String}
    (hprep : (OutputDir.prepare k.backend k.config job).run h
      { w with started := w.started ++ [job] } = (.ok output, w₁))
    (hbuilt : k.backend.invocation k.config job output = .ok words) (f : Fault) :
    Leaves k job h w (.error f) (h.behave w₁.calls (k.command words).call w₁.disk).1
  | ended {l : Launch} {d' : Disk} {r : Except Fault Outcome} (hl : k.Launches job h w l)
    (hr : Disk.Recorded k.script l.disk d')
    (hfound : ∀ o, r = .ok o → ∀ x, x ∈ o.counterexamples ↔
      ∃ p, Counterexample.Collects k.backend k.config l.output d' p ∧ x = p.text) :
    Leaves k job h w r d'

/-- What is left once the place is there. -/
theorem leaves_carryOn (hk : k.backend.IsVerifier) {w₁ : World}
    (hprep : (OutputDir.prepare k.backend k.config job).run h
      { w with started := w.started ++ [job] } = (.ok output, w₁))
    (hunstarted : ∀ f, Leaves k job h w (.error f) w₁.disk) :
    Leaves k job h w ((k.carryOn job output).run h w₁).1
      ((k.carryOn job output).run h w₁).2.disk := by
  obtain ⟨_, w₂, hann, -⟩ := (k.announce_returns job output).run h w₁
  have hd := (keeps_announce logFree_deeds k job output).of_run hann
  have hdisk := disk_of_deeds hd
  have hcalls := calls_of_deeds hd
  unfold carryOn
  rw [Action.bind_of_ok hann]
  cases hbuilt : k.backend.invocation k.config job output with
  | error f =>
    rw [← hdisk] at hunstarted
    exact hunstarted _
  | ok words =>
    show Leaves k job h w ((k.execute words >>= k.evaluate job output).run h w₂).1
      ((k.execute words >>= k.evaluate job output).run h w₂).2.disk
    rw [execute_eq hk]
    have hran := Command.ran_run (k.command words) h w₂
    rcases hexec : (k.command words).run.run h w₂ with ⟨f | capture, w₃⟩
    all_goals rw [hexec] at hran
    · rw [Action.bind_of_error hexec]
      show Leaves k job h w (.error f) w₃.disk
      generalize w₃.disk = d' at hran
      cases hran with
      | unstarted =>
        rw [hdisk]
        exact hunstarted f
      | unended hb =>
        rw [hcalls, hdisk] at hb
        have hleft := Leaves.unended hprep hbuilt f
        rw [hb] at hleft
        exact hleft
      | @ended d _ code out err overruns hl hb hr =>
        rw [hcalls, hdisk] at hb
        exact .ended (l := ⟨output, words, w₁, d, code, out, err, overruns⟩)
          ⟨hprep, hbuilt, hl, hb⟩ hr nofun
    · rw [Action.bind_of_ok hexec]
      have hkeep := disk_of_deeds (k.keeps_deeds_evaluate job output capture h w₃)
      cases hran with
      | @ended d _ code out err overruns hl hb hr =>
        rw [hcalls, hdisk] at hb
        refine .ended (l := ⟨output, words, w₁, d, code, out, err, overruns⟩)
          ⟨hprep, hbuilt, hl, hb⟩ (hkeep ▸ hr) fun o ho => ?_
        rw [hkeep]
        exact evaluate_found (Prod.ext ho rfl)

/-- **What a job leaves on the disk**, however it ends. -/
theorem leaves_verify (hk : k.backend.IsVerifier) (hc : k.config.manifestPath.Proper) (job : Job)
    (h : Host) (w : World) :
    Leaves k job h w ((k.verify job).run h w).1 ((k.verify job).run h w).2.disk := by
  have hout := Backend.proper_outputDir hc k.backend job
  obtain ⟨d₁, hcleared, hsprouts⟩ := OutputDir.leads_prepare hout h
    { w with started := w.started ++ [job] }
  replace hcleared : Disk.Cleared (k.backend.outputDir k.config job) w.disk d₁ := hcleared
  rw [verify_eq hk, Action.bind_of_ok (Action.start_run job h w)]
  show Leaves k job h w ((OutputDir.prepare k.backend k.config job >>= k.carryOn job).run h _).1
    ((OutputDir.prepare k.backend k.config job >>= k.carryOn job).run h _).2.disk
  rcases hprep : (OutputDir.prepare k.backend k.config job).run h
    { w with started := w.started ++ [job] } with ⟨f | output, w₁⟩
  all_goals rw [hprep] at hsprouts
  · rw [Action.bind_of_error hprep]
    exact .unstarted hcleared hsprouts f
  · rw [Action.bind_of_ok hprep]
    exact leaves_carryOn hk hprep fun f => .unstarted hcleared hsprouts f

/-- A job that has been launched leaves what its process has left, if there is no script, and its
counterexamples are collected from that. -/
theorem left_of_launches {l : Launch} (hk : k.backend.IsVerifier) (hscript : k.script = none)
    (hl : k.Launches job h w l) :
    ((k.verify job).run h w).2.disk = l.disk ∧ ∀ o, ((k.verify job).run h w).1 = .ok o →
      ∀ x, x ∈ o.counterexamples ↔
        ∃ p, Counterexample.Collects k.backend k.config l.output l.disk p ∧ x = p.text := by
  obtain ⟨w₁, hverify, hend⟩ := verify_run_of_launches hk hl
  obtain ⟨arguments, hw⟩ := words_of_invocation hl.built
  have hp : ¬ (k.command l.words).Unrecordable := by
    rintro ⟨p, hp, -⟩
    rw [show (k.command l.words).script = none from hscript] at hp
    cases hp
  obtain ⟨w₂, hr⟩ := Command.run_ok_of_ended hw hl.limited rfl hp hend
  have hran := Command.ran_run (k.command l.words) h w₁
  rw [hr] at hran
  have hdisk : w₂.disk = l.disk := by
    generalize w₂.disk = d' at hran
    cases hran with
    | ended hl' hb hr' =>
      rw [hend] at hb
      cases hb
      rcases hr'.cases with rfl | ⟨p, hp, -⟩
      · rfl
      · rw [show (k.command l.words).script = none from hscript] at hp
        cases hp
  have hkeep := disk_of_deeds (k.keeps_deeds_evaluate job l.output
    ((k.command l.words).capture l.code l.stdout l.stderr l.overruns) h w₂)
  rw [hverify, Action.bind_of_ok hr, ← hdisk]
  refine ⟨hkeep, fun o ho x => ?_⟩
  exact evaluate_found (Prod.ext ho rfl) x

end Checker

end Assay
