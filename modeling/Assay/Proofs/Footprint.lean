import Assay.Proofs.Places
import Assay.Proofs.Verification

/-!
# What a job sees and changes

A job whose process keeps to the job's place for results, `Confined`, sees nothing else and changes
nothing else: `verify_local`. It is proved for two runs at once. `Twins` relates two worlds whose
disks have the same at the place, and each step of verifying leads from twins to twins.
-/

namespace Assay

open Assay.Action (Respects Silent)

/-- A process can be started for a place: the disk is a tree, the directory that holds the place is
there, and no link is at the place. -/
structure Disk.Ready (loc : Location) (d : Disk) : Prop where
  wellFormed : d.WellFormed
  directory : d.get? loc.dropLast = some .directory
  plain : ∀ t, d.get? loc ≠ some (.link t)

/-- A process that keeps to a place. Elsewhere it changes nothing, it leaves no link at the place,
and how it ends and what it leaves there depends on nothing but what it found there. -/
structure Confined (h : Host) (call : Call) (loc : Location) : Prop where
  beside : ∀ before d, d.Ready loc → Disk.Beside loc d (h.behave before call d).1
  plain : ∀ before d, d.Ready loc → ∀ t, (h.behave before call d).1.get? loc ≠ some (.link t)
  alike : ∀ before before' d d', d.Ready loc → d'.Ready loc →
    (∀ below, d.get? (loc ++ below) = d'.get? (loc ++ below)) →
    (h.behave before call d).2 = (h.behave before' call d').2 ∧
      ∀ below, (h.behave before call d).1.get? (loc ++ below) =
        (h.behave before' call d').1.get? (loc ++ below)

/-- Two worlds that have come from these disks and calls by changes at a place and by new calls, the
same in both. -/
structure Twins (loc : Location) (d d' : Disk) (calls calls' : List Call) (w w' : World) :
    Prop where
  left : Disk.Beside loc d w.disk
  right : Disk.Beside loc d' w'.disk
  same : ∀ below, w.disk.get? (loc ++ below) = w'.disk.get? (loc ++ below)
  plain : ∀ t, w.disk.get? loc ≠ some (.link t)
  calls : ∃ new, w.calls = calls ++ new ∧ w'.calls = calls' ++ new

variable {root : Path} {q : Location} {name : String} {d d' : Disk} {calls calls' : List Call}
  {h : Host} {w w' : World}

theorem silent_twins (loc : Location) (d d' : Disk) (calls calls' : List Call) :
    Silent (Twins loc d d' calls calls') := by
  intro w₁ w₁' w₂ w₂' hd hd' ht
  have hdisk := disk_of_deeds hd
  have hdisk' := disk_of_deeds hd'
  have hcalls := calls_of_deeds hd
  have hcalls' := calls_of_deeds hd'
  refine ⟨?_, ?_, ?_, ?_, ?_⟩
  · rw [hdisk]
    exact ht.left
  · rw [hdisk']
    exact ht.right
  · rw [hdisk, hdisk']
    exact ht.same
  · rw [hdisk]
    exact ht.plain
  · rw [hcalls, hcalls']
    exact ht.calls

theorem Twins.plain' {loc : Location} (ht : Twins loc d d' calls calls' w w') :
    ∀ t, w'.disk.get? loc ≠ some (.link t) := by
  intro t hlink
  have hsame := ht.same []
  rw [List.append_nil] at hsame
  exact ht.plain t (hsame.trans hlink)

theorem readied_plain (b : Backend) (t : String) : OutputDir.readied b [] ≠ some (.link t) := by
  unfold OutputDir.readied
  split <;> exact nofun

/-- Places that looked alike look alike when they have been prepared. -/
theorem alike_of_prepared {b : Backend} {d₁ d₁' : Disk}
    (hsame : ∀ below, d.get? (q ++ [name] ++ below) = d'.get? (q ++ [name] ++ below))
    (hf : Disk.Followed root q name d)
    (hd : if Disk.hasNull (root.child name).text then d₁ = d
      else ∀ below, d₁.get? (q ++ [name] ++ below) = OutputDir.readied b below)
    (hd' : if Disk.hasNull (root.child name).text then d₁' = d'
      else ∀ below, d₁'.get? (q ++ [name] ++ below) = OutputDir.readied b below) :
    (∀ below, d₁.get? (q ++ [name] ++ below) = d₁'.get? (q ++ [name] ++ below)) ∧
      ∀ t, d₁.get? (q ++ [name]) ≠ some (.link t) := by
  split at hd
  case isTrue hnull =>
    rw [if_pos hnull] at hd'
    subst hd hd'
    refine ⟨hsame, fun t hlink => ?_⟩
    rw [(hf t hlink).1] at hnull
    cases hnull
  case isFalse hnull =>
    rw [if_neg hnull] at hd'
    refine ⟨fun below => (hd below).trans (hd' below).symm, fun t => ?_⟩
    have hat := hd []
    rw [List.append_nil] at hat
    rw [hat]
    exact readied_plain b t

section Steps

variable (hp : root.Proper) (hn : Disk.Fits root name) (hs : Disk.Site root q name d)
  (hs' : Disk.Site root q name d')

theorem ready_of_site (hd : Disk.Site root q name d)
    (hlink : ∀ t, d.get? (q ++ [name]) ≠ some (.link t)) : d.Ready (q ++ [name]) where
  wellFormed := hd.wellFormed
  directory := by
    rw [List.dropLast_concat]
    exact hd.directory
  plain := hlink

include hs hs'

/-- Starting a process that keeps to the place. -/
theorem respects_spawn {c : Command} (hc : Confined h c.call (q ++ [name])) :
    Respects h (Twins (q ++ [name]) d d' calls calls') c.spawn := by
  intro w w' ht
  have hready := ready_of_site (hs.beside ht.left) ht.plain
  have hready' := ready_of_site (hs'.beside ht.right) ht.plain'
  obtain ⟨hending, hsame⟩ := hc.alike w.calls w'.calls w.disk w'.disk hready hready' ht.same
  obtain ⟨new, hnew, hnew'⟩ := ht.calls
  refine ⟨congrArg Except.ok hending, ht.left.trans (hc.beside _ _ hready),
    ht.right.trans (hc.beside _ _ hready'), hsame, hc.plain _ _ hready, new ++ [c.call], ?_, ?_⟩
  · show w.calls ++ [c.call] = _
    rw [hnew, List.append_assoc]
  · show w'.calls ++ [c.call] = _
    rw [hnew', List.append_assoc]

include hp hn

/-- The names in the place, in whatever order the disk has them. -/
theorem list_perm (hnull : Disk.hasNull (root.child name).text = false)
    (ht : Twins (q ++ [name]) d d' calls calls' w w') :
    (w.disk.list (root.child name).text).Perm (w'.disk.list (root.child name).text) := by
  have hd := hs.beside ht.left
  have hd' := hs'.beside ht.right
  have hfind := Disk.find_child hp hn hnull hd.found .target (.inr ht.plain)
  have hfind' := Disk.find_child hp hn hnull hd'.found .target (.inr ht.plain')
  have hsame := ht.same []
  rw [List.append_nil] at hsame
  unfold Disk.foundAt at hfind hfind'
  rw [← hsame] at hfind'
  unfold Disk.list
  rw [hfind, hfind']
  cases w.disk.get? (q ++ [name]) with
  | none => exact .nil
  | some e =>
    cases e with
    | file content => exact .nil
    | link t => exact .nil
    | directory =>
      refine (List.perm_ext_iff_of_nodup (hd.wellFormed.nodup_childNames _)
        (hd'.wellFormed.nodup_childNames _)).mpr fun n => ?_
      rw [hd.wellFormed.mem_childNames, hd'.wellFormed.mem_childNames, ht.same [n]]

theorem respects_matching (tail : String) :
    Respects h (Twins (q ++ [name]) d d' calls calls')
      (Counterexample.matching (root.child name) tail) := by
  refine .ite (.fail _) ?_
  split
  case isTrue => exact .pure _
  case isFalse hnull =>
    intro w w' ht
    refine ⟨congrArg Except.ok ?_, ht⟩
    have hlist := list_perm hp hn hs hs' (Bool.eq_false_iff.mpr hnull) ht
    refine Path.sort_eq_of_perm ((hlist.filter _).map _) fun p hp p' hp' => ?_
    obtain ⟨n, -, rfl⟩ := List.mem_map.mp hp
    obtain ⟨n', -, rfl⟩ := List.mem_map.mp hp'
    rfl

theorem respects_collect (b : Backend) (c : Config) :
    Respects h (Twins (q ++ [name]) d d' calls calls')
      (Counterexample.collect b c (root.child name)) := by
  have hmatching : ∀ tail, Respects h (Twins (q ++ [name]) d d' calls calls')
      (Counterexample.matching (root.child name) tail) := respects_matching hp hn hs hs'
  unfold Counterexample.collect
  split
  · refine .ite (hmatching _) (.bind ?_ fun _ => .pure _)
    refine (hmatching _).bind fun _ => .bind ?_ fun _ => .pure _
    exact .of_talk (silent_twins _ _ _ _ _) (Action.returns_log _ _ _)
      (Action.keeps_deeds_log _ _ _)
  · exact .pure _

omit hp hn in
/-- Running a command that writes no script. -/
theorem respects_run {c : Command} (hscript : c.script = none)
    (hc : Confined h c.call (q ++ [name])) :
    Respects h (Twins (q ++ [name]) d d' calls calls') c.run := by
  have hsilent := silent_twins (q ++ [name]) d d' calls calls'
  unfold Command.run
  split
  · exact .fail _
  · refine .bind (.of_talk hsilent (Command.announce_returns _ _)
      (Command.keeps_announce Action.logFree_deeds _ _)) fun _ => ?_
    refine .bind (.ofExcept _) fun _ => .bind (respects_spawn hs hs' hc) fun ending => ?_
    split
    · exact .fail _
    · exact .fail _
    · refine .bind ?_ fun _ => .bind ?_ fun _ => .pure _
      · unfold Command.note
        rw [hscript]
        exact .pure ()
      · exact .ite (.of_talk hsilent (Action.returns_log _ _ _) (Action.keeps_deeds_log _ _ _))
          (.ite (.ite (.fail _) (.fail _)) (.pure ()))

/-- Everything after the process has ended. -/
theorem respects_evaluate {k : Checker} (hk : k.backend.IsVerifier) (job : Job)
    (capture : Capture) :
    Respects h (Twins (q ++ [name]) d d' calls calls')
      (k.evaluate job (root.child name) capture) := by
  have hsilent := silent_twins (q ++ [name]) d d' calls calls'
  rw [Checker.evaluate_eq]
  refine .bind (.of_returns hsilent (Checker.judge_returns hk _ _)
    (Checker.keeps_judge Action.logFree_deeds k _ _)) fun p => .bind ?_ fun _ => ?_
  · exact .of_talk hsilent (k.warnUndecided_returns _ _)
      (Checker.keeps_warnUndecided Action.logFree_deeds k _ _)
  · refine .bind (.ofExcept _) fun _ => .bind ?_ fun _ => .bind ?_ fun stats => .bind ?_ fun _ =>
      .bind (respects_collect hp hn hs hs' _ _) fun _ => .pure _
    · exact .of_talk hsilent Importance.echo_returns Importance.keeps_deeds_echo
    · unfold Checker.statistics
      split
      · exact .ofExcept _
      · exact .pure _
    · exact .of_talk hsilent (Checker.logStatistics_returns _ _)
        (Checker.keeps_logStatistics Action.logFree_deeds _ _)

/-- What is done about a job once its place has been prepared. -/
def Checker.carryOn (k : Checker) (job : Job) (output : Path) : Action Outcome := do
  k.announce job output
  let command ← Action.ofExcept ((k.backend.invocation k.config job output).mapError .job)
  let capture ← k.execute command
  k.evaluate job output capture

/-- **What is done at a place** depends on the place only, and changes nothing else. -/
theorem respects_carryOn {k : Checker} (hk : k.backend.IsVerifier) (hscript : k.script = none)
    {job : Job} (hc : ∀ words, k.backend.invocation k.config job (root.child name) = .ok words →
      Confined h (k.command words).call (q ++ [name])) :
    Respects h (Twins (q ++ [name]) d d' calls calls') (k.carryOn job (root.child name)) := by
  have hsilent := silent_twins (q ++ [name]) d d' calls calls'
  refine .bind (.of_talk hsilent (k.announce_returns _ _)
    (Checker.keeps_announce Action.logFree_deeds k _ _)) fun _ => ?_
  refine .bind_ofExcept fun words hwords => ?_
  rw [k.execute_eq hk]
  exact .bind (respects_run hs hs' hscript (hc words (mapError_ok_iff.mp hwords)))
    fun capture => respects_evaluate hp hn hs hs' hk job capture

/-- Two places that have been prepared alike: the rest of the work comes to the same. -/
theorem verify_of_prepared {k : Checker} (hk : k.backend.IsVerifier) (hscript : k.script = none)
    {job : Job} (hc : ∀ words, k.backend.invocation k.config job (root.child name) = .ok words →
      Confined h (k.command words).call (q ++ [name])) {d₁ d₁' : Disk}
    (hrun : (OutputDir.prepare k.backend k.config job).run h
      { w with started := w.started ++ [job] } = (OutputDir.prepared k.backend root name,
        { w with started := w.started ++ [job], disk := d₁ }))
    (hrun' : (OutputDir.prepare k.backend k.config job).run h
      { w' with started := w'.started ++ [job] } = (OutputDir.prepared k.backend root name,
        { w' with started := w'.started ++ [job], disk := d₁' }))
    (hd : Disk.Beside (q ++ [name]) d d₁) (hd' : Disk.Beside (q ++ [name]) d' d₁')
    (hsame : ∀ below, d₁.get? (q ++ [name] ++ below) = d₁'.get? (q ++ [name] ++ below))
    (hplain : ∀ t, d₁.get? (q ++ [name]) ≠ some (.link t)) :
    ((k.verify job).run h w).1 = ((k.verify job).run h w').1 ∧
      Twins (q ++ [name]) d d' w.calls w'.calls ((k.verify job).run h w).2
        ((k.verify job).run h w').2 := by
  have htwins : Twins (q ++ [name]) d d' w.calls w'.calls
      { w with started := w.started ++ [job], disk := d₁ }
      { w' with started := w'.started ++ [job], disk := d₁' } :=
    ⟨hd, hd', hsame, hplain, [], by rw [List.append_nil], by rw [List.append_nil]⟩
  rw [k.verify_eq hk, Action.bind_of_ok (Action.start_run job h w),
    Action.bind_of_ok (Action.start_run job h w')]
  show ((OutputDir.prepare k.backend k.config job >>= k.carryOn job).run h _).1 =
      ((OutputDir.prepare k.backend k.config job >>= k.carryOn job).run h _).1 ∧
    Twins _ _ _ _ _ ((OutputDir.prepare k.backend k.config job >>= k.carryOn job).run h _).2
      ((OutputDir.prepare k.backend k.config job >>= k.carryOn job).run h _).2
  unfold OutputDir.prepared at hrun hrun'
  split at hrun
  case isTrue hnull =>
    rw [if_pos hnull] at hrun'
    rw [Action.bind_of_error hrun, Action.bind_of_error hrun']
    exact ⟨rfl, htwins⟩
  case isFalse hnull =>
    rw [if_neg hnull] at hrun'
    rw [Action.bind_of_ok hrun, Action.bind_of_ok hrun']
    exact respects_carryOn hp hn hs hs' hk hscript hc _ _ htwins

variable {k : Checker} {job : Job} (hne : root.parts ≠ []) (hk : k.backend.IsVerifier)
  (hscript : k.script = none) (hout : k.backend.outputDir k.config job = root.child name)
  (hpin : h.pinned (root.child name) = false)
  (hc : ∀ words, k.backend.invocation k.config job (root.child name) = .ok words →
    Confined h (k.command words).call (q ++ [name]))

include hne hk hscript hout hpin hc

/-- **A job sees and changes its place only**: verified on two disks with the same at the place, it
comes to the same, and leaves the same there. -/
theorem verify_local
    (hsame : ∀ below, d.get? (q ++ [name] ++ below) = d'.get? (q ++ [name] ++ below))
    (hf : Disk.Followed root q name d) (hf' : Disk.Followed root q name d') (w w' : World)
    (hw : w.disk = d) (hw' : w'.disk = d') :
    ((k.verify job).run h w).1 = ((k.verify job).run h w').1 ∧
      Twins (q ++ [name]) d d' w.calls w'.calls ((k.verify job).run h w).2
        ((k.verify job).run h w').2 := by
  subst hw hw'
  obtain ⟨d₁, hrun, hbeside, hd₁⟩ := OutputDir.prepare_child
    (w := { w with started := w.started ++ [job] }) hp hne hn hk hout hpin hs hf
  obtain ⟨d₁', hrun', hbeside', hd₁'⟩ := OutputDir.prepare_child
    (w := { w' with started := w'.started ++ [job] }) hp hne hn hk hout hpin hs' hf'
  obtain ⟨hsame₁, hplain₁⟩ := alike_of_prepared hsame hf hd₁ hd₁'
  exact verify_of_prepared hp hn hs hs' hk hscript hc hrun hrun' hbeside hbeside' hsame₁ hplain₁

omit hs' in
/-- **The first job** makes the directory that its place is in. What it comes to, and what it
leaves, is what it would have come to had the directory been there. -/
theorem verify_first (w w' : World) (hnone : w.disk.directoryAt? root = none)
    (hmade : w.disk.makeDirectories root = (d, .ok ())) (hfree : d.get? (q ++ [name]) = none)
    (hnull : Disk.hasNull (OutputDir.wanted k.backend root name).text = false)
    (hfew : w.disk.missingAncestors (OutputDir.wanted k.backend root name) ≤ h.maxMissing)
    (hw' : w'.disk = d) :
    ((k.verify job).run h w).1 = ((k.verify job).run h w').1 ∧
      Twins (q ++ [name]) d d w.calls w'.calls ((k.verify job).run h w).2
        ((k.verify job).run h w').2 := by
  subst hw'
  have hlink : ∀ t, w'.disk.get? (q ++ [name]) ≠ some (.link t) := by
    rw [hfree]
    exact fun t => nofun
  have hcleared := hs.wellFormed.vacant hfree
  have hrun := OutputDir.prepare_unmade (w := { w with started := w.started ++ [job] }) (h := h)
    hp hn hk hout hnone hmade hs.found hfree hnull hfew
  obtain ⟨d₁', hrun', hbeside', hd₁'⟩ := OutputDir.prepare_child
    (w := { w' with started := w'.started ++ [job] }) hp hne hn hk hout hpin hs
    (Disk.followed_of_plain hlink)
  have hprepared : OutputDir.prepared k.backend root name = .ok (root.child name) := by
    rw [OutputDir.prepared, hnull, if_neg Bool.false_ne_true]
  rw [← hprepared] at hrun
  have hready := OutputDir.get?_withPlace (b := k.backend) hcleared
  have hsame : ∀ below, (OutputDir.withPlace k.backend w'.disk (q ++ [name])).get?
      (q ++ [name] ++ below) = d₁'.get? (q ++ [name] ++ below) := by
    intro below
    split at hd₁'
    case isTrue hnull' =>
      rw [hd₁', OutputDir.withPlace, OutputDir.wantsOutputDir_eq_false hnull hnull',
        if_neg Bool.false_ne_true]
    case isFalse => rw [hready, hd₁']
  refine verify_of_prepared hp hn hs hs hk hscript hc hrun hrun'
    (OutputDir.beside_withPlace hfree hs.directory) hbeside' hsame fun t => ?_
  have hat := hready []
  rw [List.append_nil] at hat
  rw [hat]
  exact readied_plain _ t

end Steps

end Assay
