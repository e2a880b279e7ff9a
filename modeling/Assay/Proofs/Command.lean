import Assay.Command
import Assay.Proofs.Action

/-!
# What a command comes to

A command makes one call, on the disk that it finds: `run_spawned`. What remains is a matter of how
the process ends, `finish`. One that has ended hands its output over, whatever it did; the only thing
that can still fail is the record in a script at a place that no file can have. A script that was
begun has a proper place, which is `hasNull_of_create`.

A command prints nothing and takes up no job: `keeps_surface_run`.
-/

namespace Assay

open Assay.Action (Keeps)

variable {δ : Type} {h : Host} {w w' : World}

namespace Script

variable {path : Path} {entry : Shell.Entry} {output : Capture}

/-- A script that was begun is at a place without a null character. -/
theorem hasNull_of_create (hc : (create path).run h w = (.ok (), w')) :
    Disk.hasNull path.text = false := by
  obtain ⟨_, w₁, _, h₁⟩ := Action.bind_ok_iff.mp hc
  obtain ⟨_, w₂, hnull, _⟩ := Action.bind_ok_iff.mp h₁
  unfold Action.refuseNull at hnull
  split at hnull
  case isTrue => cases hnull
  case isFalse hn => exact Bool.eq_false_iff.mpr hn

/-- At a proper place a record is a change of the disk. -/
theorem append_eq (hp : Disk.hasNull path.text = false) (output : Option Capture) :
    append path entry output = Action.changeDisk fun d =>
      d.extend path.text (Text.encode (Shell.record entry output)) := by
  unfold append Action.refuseNull
  rw [hp, if_neg Bool.false_ne_true, pure_bind]

/-- What can go wrong with a record at a proper place is the disk's fault. -/
theorem append_cases (hp : Disk.hasNull path.text = false) (output : Option Capture) (h : Host)
    (w : World) :
    ((append path entry output).run h w).1 = .ok () ∨
      ∃ f, ((append path entry output).run h w).1 = .error (.disk f) := by
  rw [append_eq hp]
  exact Action.changeDisk_cases _ h w

/-- A record that the disk does not take is given up. -/
theorem note_returns (hp : Disk.hasNull path.text = false) :
    Action.Returns (note path entry output) fun _ => True := by
  intro h w
  unfold note
  rw [Action.bind_of_ok (Action.attempt_run _ h w)]
  rcases append_cases hp (some output) h w with hr | ⟨f, hr⟩ <;> rw [hr]
  · exact ⟨(), rfl, trivial⟩
  · exact ⟨(), rfl, trivial⟩

theorem note_raises (hp : Disk.hasNull path.text = true) :
    Action.Raises (note path entry output) := by
  intro h w
  unfold note append Action.refuseNull
  rw [if_pos hp]
  exact ⟨.nullByte, rfl⟩

theorem keeps_append {view : World → δ} (hv : Action.DiskFree view) (output : Option Capture) :
    Keeps view (append path entry output) :=
  (Action.keeps_refuseNull _).bind fun _ => Action.keeps_changeDisk hv _

theorem keeps_note {view : World → δ} (hv : Action.DiskFree view)
    (hl : ∀ message, Keeps view (Action.log .error .process message)) :
    Keeps view (note path entry output) := by
  refine (keeps_append hv _).attempt.bind fun r => ?_
  split
  · exact Keeps.pure ()
  · exact hl _
  · exact Keeps.fail _

theorem keeps_surface_note : Keeps World.surface (note path entry output) :=
  keeps_note Action.diskFree_surface fun _ => Action.keeps_log Action.logFree_surface _ _ _

/-- The disk after a record. One that the disk does not take is given up. -/
def recorded (path : Path) (entry : Shell.Entry) (output : Capture) (d : Disk) : Disk :=
  match d.extend path.text (Text.encode (Shell.record entry (some output))) with
  | .ok d' => d'
  | .error _ => d

theorem disk_note (hp : Disk.hasNull path.text = false) (h : Host) (w : World) :
    ((note path entry output).run h w).2.disk = recorded path entry output w.disk := by
  unfold note recorded
  rw [Action.bind_of_ok (Action.attempt_run _ h w), append_eq hp]
  generalize hc : (fun d => Disk.extend d path.text
    (Text.encode (Shell.record entry (some output)))) = change
  have hd : w.disk.extend path.text (Text.encode (Shell.record entry (some output))) =
      change w.disk := congrFun hc w.disk
  rw [hd]
  cases hx : change w.disk with
  | ok d =>
    rw [Action.changeDisk_run hx]
    rfl
  | error f =>
    rw [Action.changeDisk_run_error hx]
    rfl

end Script

namespace Command

variable {c : Command} {program : String}

theorem announce_returns (c : Command) (program : String) :
    Action.Returns (c.announce program) fun _ => True := by
  refine (Action.returns_log _ _ _).seq fun _ => ?_
  split
  · exact Action.Returns.pure trivial
  · exact Action.returns_log _ _ _

theorem keeps_announce_of_log {view : World → δ}
    (hl : ∀ message, Keeps view (Action.logInfo .process message)) (c : Command)
    (program : String) : Keeps view (c.announce program) :=
  (hl _).bind fun _ => Keeps.ite (Keeps.pure ()) (hl _)

theorem keeps_announce {view : World → δ} (hv : Action.LogFree view) (c : Command)
    (program : String) : Keeps view (c.announce program) :=
  keeps_announce_of_log (fun _ => Action.keeps_log hv _ _ _) c program

/-- The command is to be written down at a place that no file can have. -/
def Unrecordable (c : Command) : Prop :=
  ∃ p ∈ c.script, Disk.hasNull p.text = true

theorem noteOutput_returns (hp : ¬ c.Unrecordable) (output : Capture) :
    Action.Returns (c.note output) fun _ => True := by
  unfold note
  cases hc : c.script with
  | none => exact Action.Returns.pure trivial
  | some p =>
    have hn : Disk.hasNull p.text = false := Bool.eq_false_iff.mpr fun hn => hp ⟨p, hc, hn⟩
    exact Script.note_returns hn

theorem noteOutput_raises (hp : c.Unrecordable) (output : Capture) :
    Action.Raises (c.note output) := by
  obtain ⟨p, hc, hnull⟩ := hp
  unfold note
  rw [Option.mem_def.mp hc]
  exact Script.note_raises hnull

/-- Unless success is asked for, every ending will do. -/
theorem conclude_returns (hs : c.mustSucceed = false) (output : Capture) :
    Action.Returns (c.conclude program output) fun _ => True := by
  unfold conclude
  split
  · exact Action.returns_log _ _ _
  · rw [hs, Bool.false_and, if_neg Bool.false_ne_true]
    exact Action.Returns.pure trivial

theorem keeps_surface_conclude (c : Command) (output : Capture) :
    Keeps World.surface (c.conclude program output) := by
  refine Keeps.ite (Action.keeps_log Action.logFree_surface _ _ _) (Keeps.ite ?_ (Keeps.pure ()))
  exact Keeps.ite (Keeps.fail _) (Keeps.fail _)

theorem keeps_surface_spawn (c : Command) : Keeps World.surface c.spawn :=
  fun _ _ => rfl

theorem keeps_surface_noteOutput (c : Command) (output : Capture) :
    Keeps World.surface (c.note output) := by
  unfold note
  split
  · exact Script.keeps_surface_note
  · exact Keeps.pure ()

/-! ## A process that was to be started -/

theorem spawn_run {disk : Disk} {ending : Ending}
    (hb : h.behave w.calls c.call w.disk = (disk, ending)) :
    c.spawn.run h w = (.ok ending, { w with disk := disk, calls := w.calls ++ [c.call] }) := by
  have hr : c.spawn.run h w = (.ok (h.behave w.calls c.call w.disk).2,
      { w with disk := (h.behave w.calls c.call w.disk).1, calls := w.calls ++ [c.call] }) := rfl
  rw [hr, hb]

/-- What remains to be done once it is clear what has come of the call. -/
def finish (c : Command) (program : String) : Ending → Action Capture
  | .refused f => Action.fail (.job (.cannotSpawn program f))
  | .abandoned f => Action.fail (.call f)
  | .ended code out err overruns => do
    c.note (c.capture code out err overruns)
    c.conclude program (c.capture code out err overruns)
    return c.capture code out err overruns

/-- **A command makes one call**, on the disk that it finds, and what it comes to is a matter of how
the process ends. -/
theorem run_spawned {arguments : List String} (hw : c.words = program :: arguments)
    (hl : c.limit ≠ some .nothing) (h : Host) (w : World) :
    ∃ w₁, w.Grows w₁ [] [c.call] [] ∧ w₁.disk = (h.behave w.calls c.call w.disk).1 ∧
      c.run.run h w = (c.finish program (h.behave w.calls c.call w.disk).2).run h w₁ := by
  obtain ⟨_, w₁, hr, -⟩ := (announce_returns c program).run h w
  have hd := (keeps_announce Action.logFree_deeds c program).of_run hr
  have hsaid : w.Grows w₁ [] [] [] := .of_tally
    ((keeps_announce_of_log (fun _ => Action.keeps_tally_log (by decide) _ _) c program).of_run hr)
  have hlimit : c.needLimit = .ok () := if_neg hl
  rcases hb : h.behave w.calls c.call w.disk with ⟨disk, ending⟩
  have hb₁ : h.behave w₁.calls c.call w₁.disk = (disk, ending) := by
    rw [disk_of_deeds hd, calls_of_deeds hd, hb]
  have hcalled : w₁.Grows { w₁ with disk := disk, calls := w₁.calls ++ [c.call] }
      [] [c.call] [] :=
    ⟨(List.append_nil _).symm, rfl, (List.append_nil _).symm, rfl, rfl⟩
  refine ⟨_, hsaid.trans hcalled, rfl, ?_⟩
  unfold run
  rw [hw]
  dsimp only
  rw [Action.bind_of_ok hr, hlimit, Action.bind_of_ok (Action.ofExcept_run _ h w₁),
    Action.bind_of_ok (spawn_run hb₁)]
  cases ending with
  | refused f => rfl
  | abandoned f => rfl
  | ended code out err overruns => rfl

section Ended

variable {arguments : List String} {disk : Disk} {code : Int} {out err : Text.Bytes}
  {overruns : Bool}

/-- What remains to be done once a process has ended is the record in the script and the end. -/
theorem run_of_ended (hw : c.words = program :: arguments) (hl : c.limit ≠ some .nothing)
    (hb : h.behave w.calls c.call w.disk = (disk, .ended code out err overruns)) :
    ∃ w', c.run.run h w = (c.finish program (.ended code out err overruns)).run h w' := by
  obtain ⟨w₁, -, -, hr⟩ := run_spawned hw hl h w
  rw [hb] at hr
  exact ⟨w₁, hr⟩

/-- **A process that has ended** hands its output over, whatever it did. -/
theorem run_ok_of_ended (hw : c.words = program :: arguments) (hl : c.limit ≠ some .nothing)
    (hs : c.mustSucceed = false) (hp : ¬ c.Unrecordable)
    (hb : h.behave w.calls c.call w.disk = (disk, .ended code out err overruns)) :
    ∃ w', c.run.run h w = (.ok (c.capture code out err overruns), w') := by
  obtain ⟨w₁, hr⟩ := run_of_ended hw hl hb
  have hconclude : Action.Returns (c.conclude program (c.capture code out err overruns)) _ :=
    conclude_returns hs _
  have hend := (noteOutput_returns hp (c.capture code out err overruns)).seq fun _ =>
    hconclude.seq fun _ => Action.Returns.pure (rfl : c.capture code out err overruns = _)
  obtain ⟨_, w', ho, rfl⟩ := hend.run h w₁
  exact ⟨w', hr.trans ho⟩

/-- A record at a place that no file can have is not given up: the whole command fails. -/
theorem run_raises_of_ended (hw : c.words = program :: arguments) (hl : c.limit ≠ some .nothing)
    (hp : c.Unrecordable)
    (hb : h.behave w.calls c.call w.disk = (disk, .ended code out err overruns)) :
    ∃ e w', c.run.run h w = (.error e, w') := by
  obtain ⟨w₁, hr⟩ := run_of_ended hw hl hb
  have hend := (noteOutput_raises hp (c.capture code out err overruns)).bind fun _ => do
    c.conclude program (c.capture code out err overruns)
    return c.capture code out err overruns
  obtain ⟨e, w', he⟩ := hend.run h w₁
  exact ⟨e, w', hr.trans he⟩

/-- Without a limit no process is killed. -/
theorem capture_unlimited (hl : c.limit = none) :
    c.capture code out err overruns = ⟨code, c.decode out, c.decode err, false⟩ := by
  have hseconds : c.seconds? = none := by
    unfold seconds?
    rw [hl]
    rfl
  unfold capture
  rw [hseconds, Option.isSome_none, Bool.and_false]
  rfl

/-- The disk after the record in the script, if there is one. -/
def recorded (c : Command) (output : Capture) (d : Disk) : Disk :=
  match c.script with
  | some p => Script.recorded p c.entry output d
  | none => d

theorem noteOutput_run (hp : ¬ c.Unrecordable) (output : Capture) (h : Host) (w : World) :
    ∃ w', (c.note output).run h w = (.ok (), w') ∧ w.Grows w' [] [] [] ∧
      w'.disk = c.recorded output w.disk := by
  obtain ⟨_, w', hr, -⟩ := (noteOutput_returns hp output).run h w
  refine ⟨w', hr, ?_⟩
  unfold note at hr
  unfold recorded
  cases hc : c.script with
  | none =>
    rw [hc] at hr
    obtain ⟨-, rfl⟩ := Action.pure_ok_iff.mp hr
    exact ⟨.of_tally rfl, rfl⟩
  | some p =>
    rw [hc] at hr
    have hkeeps : Keeps World.tally (Script.note p c.entry output) :=
      Script.keeps_note Action.diskFree_tally fun _ => Action.keeps_tally_log (by decide) _ _
    have hn : Disk.hasNull p.text = false := Bool.eq_false_iff.mpr fun hn => hp ⟨p, hc, hn⟩
    have hd : ((Script.note p c.entry output).run h w).2.disk =
        Script.recorded p c.entry output w.disk := Script.disk_note hn h w
    rw [hr] at hd
    exact ⟨.of_tally (hkeeps.of_run hr), hd⟩

/-- A command that has no limit, and for which every exit will do, hands its output over and leaves
nothing behind but the record. -/
theorem finish_run (hl : c.limit = none) (hs : c.mustSucceed = false) (hp : ¬ c.Unrecordable)
    (h : Host) (w : World) : ∃ w',
      (c.finish program (.ended code out err overruns)).run h w =
        (.ok ⟨code, c.decode out, c.decode err, false⟩, w') ∧
      w.Grows w' [] [] [] ∧
      w'.disk = c.recorded ⟨code, c.decode out, c.decode err, false⟩ w.disk := by
  simp only [finish, capture_unlimited hl]
  obtain ⟨w', hr, hgrows, hdisk⟩ := noteOutput_run hp ⟨code, c.decode out, c.decode err, false⟩ h w
  refine ⟨w', ?_, hgrows, hdisk⟩
  have hconclude : c.conclude program ⟨code, c.decode out, c.decode err, false⟩ = pure () := by
    unfold conclude
    rw [if_neg Bool.false_ne_true, hs, Bool.false_and, if_neg Bool.false_ne_true]
  rw [Action.bind_of_ok hr, hconclude, pure_bind, Action.pure_run]

end Ended

/-- Running a command prints nothing and takes up no job. -/
theorem keeps_surface_run (c : Command) : Keeps World.surface c.run := by
  unfold run
  split
  · exact Keeps.fail _
  · refine (keeps_announce Action.logFree_surface _ _).bind fun _ => ?_
    refine (Keeps.ofExcept _).bind fun _ => (keeps_surface_spawn c).bind fun ending => ?_
    split
    · exact Keeps.fail _
    · exact Keeps.fail _
    · refine (keeps_surface_noteOutput c _).bind fun _ => ?_
      exact (keeps_surface_conclude c _).bind fun _ => Keeps.pure _

end Command

end Assay
