import Assay.Proofs.Footprint

/-!
# Two actions in step

`Tracks h Q x y` compares two actions. Started where the same has been done, whatever has been said,
they end alike: with values that `Q` relates or with the same fault, and the same has been done
afterwards. There is one rule for each way of putting actions together, as for the other
predicates on actions.

The second half is about the steps that a job is made of, each beside itself: preparing its
place, starting its process, noting it down and judging the output depend on nothing but what has
been done (`respects_prepare`, `respects_run`, `respects_judge`).
-/

namespace Assay

open Assay.Action (Keeps Returns Respects Silent)

namespace Action

variable {α β γ δ ι : Type} {h : Host}

/-- The same has been done in both worlds. -/
def SameDeeds (w w' : World) : Prop :=
  w'.deeds = w.deeds

theorem silent_sameDeeds : Silent SameDeeds := by
  intro w₁ w₁' w₂ w₂' hd hd' hR
  show w₂'.deeds = w₂.deeds
  rw [hd, hd']
  exact hR

/-- Two endings that are alike up to `Q`. -/
inductive Alike (Q : α → β → Prop) : Except Fault α → Except Fault β → Prop where
  | ok {a : α} {b : β} (hq : Q a b) : Alike Q (.ok a) (.ok b)
  | error (f : Fault) : Alike Q (.error f) (.error f)

theorem Alike.of_eq {r r' : Except Fault α} (hr : r = r') : Alike Eq r r' := by
  subst hr
  cases r with
  | error f => exact .error f
  | ok a => exact .ok rfl

theorem Alike.eq {r r' : Except Fault α} (hr : Alike Eq r r') : r = r' := by
  cases hr with
  | ok hq => rw [hq]
  | error f => rfl

/-- Started where the same has been done, the two actions end alike, and the same has been done. -/
def Tracks (h : Host) (Q : α → β → Prop) (x : Action α) (y : Action β) : Prop :=
  ∀ w w', SameDeeds w w' →
    Alike Q (x.run h w).1 (y.run h w').1 ∧ SameDeeds (x.run h w).2 (y.run h w').2

namespace Tracks

variable {Q : α → β → Prop} {Q' : γ → δ → Prop} {x : Action α} {y : Action β}
  {f : α → Action γ} {g : β → Action δ}

theorem of_respects {x : Action α} (hx : Respects h SameDeeds x) : Tracks h Eq x x :=
  fun w w' hR => ⟨.of_eq (hx w w' hR).1, (hx w w' hR).2⟩

theorem pure {a : α} {b : β} (hq : Q a b) :
    Tracks h Q (Pure.pure a : Action α) (Pure.pure b : Action β) :=
  fun _ _ hR => ⟨.ok hq, hR⟩

theorem fail (e : Fault) : Tracks h Q (Action.fail e : Action α) (Action.fail e : Action β) :=
  fun _ _ hR => ⟨.error e, hR⟩

theorem mono {P : α → β → Prop} (hx : Tracks h Q x y) (hP : ∀ a b, Q a b → P a b) :
    Tracks h P x y := by
  intro w w' hR
  obtain ⟨halike, hR'⟩ := hx w w' hR
  refine ⟨?_, hR'⟩
  generalize (x.run h w).1 = r, (y.run h w').1 = r' at halike
  cases halike with
  | ok hq => exact .ok (hP _ _ hq)
  | error e => exact .error e

/-- What is known of the first value may be added. -/
theorem holding {P : α → Prop} (hx : Tracks h Q x y)
    (hP : ∀ w a w', x.run h w = (.ok a, w') → P a) : Tracks h (fun a b => Q a b ∧ P a) x y := by
  intro w w' hR
  obtain ⟨halike, hR'⟩ := hx w w' hR
  refine ⟨?_, hR'⟩
  rcases hr : x.run h w with ⟨r, w₁⟩
  rw [hr] at halike
  generalize (y.run h w').1 = r' at halike
  cases halike with
  | ok hq => exact .ok ⟨hq, hP w _ w₁ hr⟩
  | error e => exact .error e

theorem bind (hx : Tracks h Q x y) (hf : ∀ a b, Q a b → Tracks h Q' (f a) (g b)) :
    Tracks h Q' (x >>= f) (y >>= g) := by
  intro w w' hR
  obtain ⟨halike, hR'⟩ := hx w w' hR
  rcases hr : x.run h w with ⟨r, w₁⟩
  rcases hr' : y.run h w' with ⟨r', w₁'⟩
  rw [hr, hr'] at halike hR'
  cases halike with
  | ok hq =>
    rw [bind_of_ok hr, bind_of_ok hr']
    exact hf _ _ hq w₁ w₁' hR'
  | error e =>
    rw [bind_of_error hr, bind_of_error hr']
    exact ⟨.error e, hR'⟩

/-- After a common step, which depends on nothing but what has been done. -/
theorem after {x : Action α} {f : α → Action γ} {g : α → Action δ}
    (hx : Respects h SameDeeds x) (hf : ∀ a, Tracks h Q' (f a) (g a)) :
    Tracks h Q' (x >>= f) (x >>= g) := by
  refine (of_respects hx).bind ?_
  rintro a _ rfl
  exact hf a

theorem attempt (hx : Tracks h Q x y) :
    Tracks h (fun r r' => Alike Q r r') (Action.attempt x) (Action.attempt y) :=
  fun w w' hR => ⟨.ok (hx w w' hR).1, (hx w w' hR).2⟩

/-- What is only said need not be the same. -/
theorem talk {x : Action α} {y : Action β} (hx : Returns x fun _ => True)
    (hkx : Keeps World.deeds x) (hy : Returns y fun _ => True) (hky : Keeps World.deeds y) :
    Tracks h (fun _ _ => True) x y := by
  intro w w' hR
  obtain ⟨a, ha, -⟩ := hx h w
  obtain ⟨b, hb, -⟩ := hy h w'
  rw [ha, hb]
  exact ⟨.ok trivial, silent_sameDeeds w w' _ _ (hkx h w) (hky h w') hR⟩

theorem mapM {f : ι → Action α} {g : ι → Action β} :
    ∀ (l : List ι), (∀ i ∈ l, Tracks h Q (f i) (g i)) →
      Tracks h (List.Forall₂ Q) (l.mapM f) (l.mapM g)
  | [], _ => pure .nil
  | i :: l, hl => by
    rw [List.mapM_cons, List.mapM_cons]
    refine (hl i List.mem_cons_self).bind fun a b hq => ?_
    exact (mapM l fun j hj => hl j (List.mem_cons_of_mem i hj)).bind fun as bs hqs =>
      pure (.cons hq hqs)

end Tracks

/-! ## Steps beside themselves -/

theorem respects_attempt {R : World → World → Prop} {x : Action α} (hx : Respects h R x) :
    Respects h R (attempt x) :=
  fun w w' hR => ⟨congrArg Except.ok (hx w w' hR).1, (hx w w' hR).2⟩

theorem respects_host {R : World → World → Prop} : Respects h R Action.host :=
  fun _ _ hR => ⟨rfl, hR⟩

theorem respects_disk : Respects h SameDeeds Action.disk :=
  fun _ _ hR => ⟨congrArg Except.ok (disk_of_deeds hR).symm, hR⟩

theorem respects_setDisk (d : Disk) : Respects h SameDeeds (setDisk d) := by
  intro w w' hR
  refine ⟨rfl, ?_⟩
  show (d, w'.calls, w'.started) = (d, w.calls, w.started)
  rw [calls_of_deeds hR, started_of_deeds hR]

theorem respects_start (job : Job) : Respects h SameDeeds (start job) := by
  intro w w' hR
  refine ⟨rfl, ?_⟩
  show (w'.disk, w'.calls, w'.started ++ [job]) = (w.disk, w.calls, w.started ++ [job])
  rw [disk_of_deeds hR, calls_of_deeds hR, started_of_deeds hR]

theorem respects_askDisk (question : Disk → Except OsFault α) :
    Respects h SameDeeds (askDisk question) := by
  refine respects_disk.bind fun d => ?_
  cases question d with
  | ok a => exact .pure a
  | error f => exact .fail _

theorem respects_changeDisk (change : Disk → Except OsFault Disk) :
    Respects h SameDeeds (changeDisk change) := by
  refine respects_disk.bind fun d => ?_
  cases change d with
  | ok d' => exact respects_setDisk d'
  | error f => exact .fail _

theorem respects_refuseNull {R : World → World → Prop} (s : String) :
    Respects h R (refuseNull s) :=
  .ite (.fail _) (.pure ())

theorem respects_makeDirectories (path : Path) :
    Respects h SameDeeds (makeDirectories path) := by
  refine (respects_refuseNull _).bind fun _ => respects_host.bind fun _ => ?_
  refine respects_disk.bind fun d => .ite (.fail _) (respects_disk.bind fun d => ?_)
  rcases d.makeDirectories path with ⟨d', _ | _⟩
  · exact (respects_setDisk d').bind fun _ => .fail _
  · exact (respects_setDisk d').bind fun _ => .pure _

end Action

namespace OutputDir

open Assay.Action

variable {h : Host}

theorem respects_clear (path : Path) : Respects h SameDeeds (clear path) := by
  have htree : Respects h SameDeeds (isTree path) := by
    refine (respects_askDisk _).bind fun there => .ite ?_ (.pure _)
    exact (respects_askDisk _).bind fun link => .pure _
  have hoccupied : Respects h SameDeeds (isOccupied path) :=
    (respects_askDisk _).bind fun there => .ite (.pure _) (respects_askDisk _)
  refine htree.bind fun tree => .ite ?_ (hoccupied.bind fun there => .ite ?_ (.pure ()))
  · refine respects_host.bind fun host => .ite (.pure ()) ?_
    exact respects_disk.bind fun d => respects_setDisk _
  · refine respects_host.bind fun host => .ite (.pure ()) (respects_disk.bind fun d => ?_)
    cases d.remove path.text with
    | ok d' => exact respects_setDisk d'
    | error f => exact .pure ()

theorem respects_prepare (b : Backend) (c : Config) (job : Job) :
    Respects h SameDeeds (prepare b c job) := by
  unfold prepare
  dsimp only
  split
  · exact .pure _
  · refine (respects_clear _).bind fun _ => (respects_askDisk _).bind fun there => ?_
    exact .ite (.fail _) ((respects_makeDirectories _).bind fun _ => .pure _)

end OutputDir

namespace Command

open Assay.Action

variable {h : Host}

theorem respects_spawn (c : Command) : Respects h SameDeeds c.spawn := by
  intro w w' hR
  have hd := disk_of_deeds hR
  have hc := calls_of_deeds hR
  have hs := started_of_deeds hR
  have hrun : ∀ w : World, c.spawn.run h w = (.ok (h.behave w.calls c.call w.disk).2,
      { w with disk := (h.behave w.calls c.call w.disk).1, calls := w.calls ++ [c.call] }) :=
    fun _ => rfl
  rw [hrun, hrun, hd, hc]
  refine ⟨rfl, ?_⟩
  show (_, w.calls ++ [c.call], w'.started) = (_, w.calls ++ [c.call], w.started)
  rw [hs]

theorem respects_note (c : Command) (output : Capture) : Respects h SameDeeds (c.note output) := by
  unfold note
  split
  · refine (respects_attempt ?_).bind fun r => ?_
    · exact (respects_refuseNull _).bind fun _ => respects_changeDisk _
    · split
      · exact .pure ()
      · exact .of_talk silent_sameDeeds (returns_log _ _ _) (keeps_deeds_log _ _ _)
      · exact .fail _
  · exact .pure ()

theorem respects_run (c : Command) : Respects h SameDeeds c.run := by
  unfold run
  split
  · exact .fail _
  · refine .bind (.of_talk silent_sameDeeds (announce_returns _ _)
      (keeps_announce logFree_deeds _ _)) fun _ => ?_
    refine .bind (.ofExcept _) fun _ => (respects_spawn c).bind fun ending => ?_
    split
    · exact .fail _
    · exact .fail _
    · refine (respects_note c _).bind fun _ => .bind ?_ fun _ => .pure _
      exact .ite (.of_talk silent_sameDeeds (returns_log _ _ _) (keeps_deeds_log _ _ _))
        (.ite (.ite (.fail _) (.fail _)) (.pure ()))

end Command

end Assay
