import Assay.OutputDir
import Assay.Proofs.Action

/-!
# Places for results

Preparing the place for a job's results prints nothing and takes up no job:
`keeps_surface_prepare`. Where nothing has to be removed or made, preparing changes nothing at all:
`prepare_klee`.
-/

namespace Assay

open Assay.Action (Keeps)

namespace Disk

variable {d : Disk} {path : String} {loc : Location}

theorem look_of_entry {aim : Aim} {e : Entry} (hn : hasNull path = false)
    (hf : d.find aim path = .ok (.entry loc e)) : d.look aim path = .ok (some e) := by
  unfold look
  rw [hn, if_neg Bool.false_ne_true, hf]

/-- Nothing is at a path that the operating system does not take. -/
theorem look_of_null (hn : hasNull path = true) (aim : Aim) : d.look aim path = .ok none := by
  unfold look
  rw [if_pos hn]

theorem look_of_vacant {aim : Aim} {name : String} (hf : d.find aim path = .ok (.vacant loc name)) :
    d.look aim path = .ok none := by
  unfold look
  rw [hf]
  split <;> rfl

theorem exists?_of_absent (hl : d.look .target path = .ok none) : d.exists? path = .ok false := by
  unfold exists?
  rw [hl]
  rfl

/-- That something is there already is not a complaint about what is missing. -/
theorem code_entryExists (path : String) :
    (OsFault.ofErrno .entryExists path).code ≠ Errno.noEntry.code := by
  show (17 : Int) ≠ 2
  decide

/-- A directory that is there need not be made, be it behind a link. -/
theorem ensureDirectory_of_directory {at' : Location} {e : Entry} (hn : hasNull path = false)
    (hi : d.find .itself path = .ok (.entry at' e))
    (ht : d.find .target path = .ok (.entry loc .directory)) : d.ensureDirectory path = .ok d := by
  have hmake : d.makeDirectory path = .error (.ofErrno .entryExists path) := by
    unfold makeDirectory
    rw [hi]
  have hdir : d.isDirectory? path = .ok true := by
    unfold isDirectory?
    rw [look_of_entry hn ht]
    rfl
  unfold ensureDirectory
  rw [hmake]
  dsimp only
  rw [if_neg (code_entryExists path), hdir]

/-- A directory whose place is free is made there. -/
theorem ensureDirectory_of_vacant {name : String}
    (hf : d.find .itself path = .ok (.vacant loc name)) :
    d.ensureDirectory path = .ok (d.insert (loc ++ [name]) .directory) := by
  unfold ensureDirectory makeDirectory
  rw [hf]

theorem makeDirectories_of_ensureDirectory {p : Path} {d' : Disk}
    (he : d.ensureDirectory p.text = .ok d') : d.makeDirectories p = (d', .ok ()) := by
  unfold makeDirectories
  rw [makeLocated, he]
  rfl

theorem missingAncestors_of_ensureDirectory {p : Path} {d' : Disk}
    (he : d.ensureDirectory p.text = .ok d') : d.missingAncestors p = 0 := by
  rw [missingAncestors, he]

section

variable {p : Path} {f : OsFault} (he : d.ensureDirectory p.text = .error f)
  (hcode : f.code ≠ Errno.noEntry.code)

include he hcode

/-- Where something is in the way, no ancestors are made. -/
theorem makeDirectories_of_blocked : d.makeDirectories p = (d, .error f) := by
  unfold makeDirectories
  rw [makeLocated, he]
  dsimp only
  rw [if_neg hcode, dite_eq_ite, ite_self]
  rfl

theorem missingAncestors_of_blocked : d.missingAncestors p = 0 := by
  rw [missingAncestors, he]
  dsimp only
  rw [if_neg hcode, dite_eq_ite, ite_self]

end

end Disk

namespace OutputDir

theorem keeps_surface_removeEntry (path : Path) : Keeps World.surface (removeEntry path) := by
  refine Keeps.host.bind fun h => Keeps.ite (Keeps.pure ()) (Keeps.disk.bind fun d => ?_)
  split
  · exact Action.keeps_surface_setDisk _
  · exact Keeps.pure ()

theorem keeps_surface_removeTree (path : Path) : Keeps World.surface (removeTree path) :=
  Keeps.host.bind fun _ => Keeps.ite (Keeps.pure ()) <| Keeps.disk.bind fun _ =>
    Action.keeps_surface_setDisk _

theorem keeps_surface_clear (path : Path) : Keeps World.surface (clear path) := by
  refine Keeps.bind ?_ fun tree => Keeps.ite (keeps_surface_removeTree path) ?_
  · refine (Action.keeps_askDisk _).bind fun _ => Keeps.ite ?_ (Keeps.pure _)
    exact (Action.keeps_askDisk _).bind fun _ => Keeps.pure _
  · refine Keeps.bind ?_ fun occupied => Keeps.ite (keeps_surface_removeEntry path) (Keeps.pure ())
    exact (Action.keeps_askDisk _).bind fun _ => Keeps.ite (Keeps.pure _) (Action.keeps_askDisk _)

/-- Preparing a place prints nothing and takes up no job. -/
theorem keeps_surface_prepare (b : Backend) (c : Config) (job : Job) :
    Keeps World.surface (prepare b c job) := by
  unfold prepare
  split
  · exact Keeps.pure _
  · refine (keeps_surface_clear _).bind fun _ => (Action.keeps_askDisk _).bind fun _ => ?_
    refine Keeps.ite (Keeps.fail _) ?_
    exact (Action.keeps_surface_makeDirectories _).bind fun _ => Keeps.pure _

variable {path : Path} {loc loc' : Location} {name name' : String} {h : Host} {w : World}

/-- Where nothing is, nothing is removed. -/
theorem clear_of_absent (ht : w.disk.look .target path.text = .ok none)
    (hi : w.disk.look .itself path.text = .ok none) : (clear path).run h w = (.ok (), w) := by
  have hdir : w.disk.isDirectory? path.text = .ok false := by
    unfold Disk.isDirectory?
    rw [ht]
    rfl
  have hlink : w.disk.isLink? path.text = .ok false := by
    unfold Disk.isLink?
    rw [hi]
    rfl
  have htree : (isTree path).run h w = (.ok false, w) := by
    unfold isTree
    rw [Action.bind_of_ok (Action.askDisk_run hdir)]
    rfl
  have hoccupied : (isOccupied path).run h w = (.ok false, w) := by
    unfold isOccupied
    rw [Action.bind_of_ok (Action.askDisk_run (Disk.exists?_of_absent ht)),
      if_neg Bool.false_ne_true]
    exact Action.askDisk_run hlink
  unfold clear
  rw [Action.bind_of_ok htree, if_neg Bool.false_ne_true, Action.bind_of_ok hoccupied]
  rfl

/-- What making directories comes to if no more are missing than can be made at once. -/
theorem makeDirectories_run_of_few (hn : Disk.hasNull path.text = false)
    (hfew : w.disk.missingAncestors path ≤ h.maxMissing) {d' : Disk} {r : Except OsFault Unit}
    (hm : w.disk.makeDirectories path = (d', r)) :
    (Action.makeDirectories path).run h w = (r.mapError .disk, { w with disk := d' }) := by
  unfold Action.makeDirectories
  rw [Action.bind_of_ok (Action.refuseNull_run hn), Action.bind_of_ok (Action.host_run h w),
    Action.bind_of_ok (Action.disk_run h w), if_neg (Nat.not_lt.mpr hfew),
    Action.bind_of_ok (Action.disk_run h w), hm]
  cases r <;> rfl

/-- A directory that can be made or is there already is all that is needed. -/
theorem makeDirectories_run {d' : Disk} (hn : Disk.hasNull path.text = false)
    (he : w.disk.ensureDirectory path.text = .ok d') :
    (Action.makeDirectories path).run h w = (.ok (), { w with disk := d' }) := by
  have hfew : w.disk.missingAncestors path ≤ h.maxMissing := by
    rw [Disk.missingAncestors_of_ensureDirectory he]
    exact Nat.zero_le _
  exact makeDirectories_run_of_few hn hfew (Disk.makeDirectories_of_ensureDirectory he)

/-- KLEE's place for results is ready if nothing is there but the directory that is to hold it. -/
theorem prepare_klee {c : Config} {job : Job} (hpath : Backend.klee.outputDir c job = path)
    (ht : w.disk.find .target path.text = .ok (.vacant loc name))
    (hi : w.disk.find .itself path.text = .ok (.vacant loc' name'))
    (hn : Disk.hasNull path.parent.text = false)
    (hpi : w.disk.find .itself path.parent.text = .ok (.entry loc .directory))
    (hpt : w.disk.find .target path.parent.text = .ok (.entry loc .directory)) :
    (prepare .klee c job).run h w = (.ok path, w) := by
  have he := Disk.ensureDirectory_of_directory hn hpi hpt
  have hmake : (Action.makeDirectories path.parent).run h w = (.ok (), w) :=
    makeDirectories_run hn he
  have hlook := Disk.look_of_vacant ht
  unfold prepare
  dsimp only
  rw [hpath, Action.bind_of_ok (clear_of_absent hlook (Disk.look_of_vacant hi)),
    Action.bind_of_ok (Action.askDisk_run (Disk.exists?_of_absent hlook)),
    if_neg Bool.false_ne_true]
  show (Action.makeDirectories path.parent >>= _).run h w = _
  rw [Action.bind_of_ok hmake]
  rfl

end OutputDir

end Assay
