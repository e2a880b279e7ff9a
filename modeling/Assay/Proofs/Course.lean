import Assay.Proofs.Places
import Assay.Proofs.Schedule

/-!
# Courses

Jobs whose verification comes to the same whichever jobs have been verified before it can be taken
up in any order: the suite is the same, the same processes are started, and the disk is the same in
the end. `Course` asks for this step by step, `Course.runInOrder_run` concludes it for a whole run,
and `Course.independent` compares the orders.

`Disk.After` describes the disk of such a run by the set of jobs that have been done: it is the disk
that all started from, but for the places of these jobs, each of which is as its job has left it.
-/

namespace Assay

namespace Disk

/-- The same entries, whatever order they are kept in. -/
structure Same (d d' : Disk) : Prop where
  here : d'.here = d.here
  entries : ∀ loc, d'.get? loc = d.get? loc

/-- Two names in a directory have nothing in common. -/
theorem name_of_prefix {q l : Location} {name name' : String} (h : q ++ [name] <+: l)
    (h' : q ++ [name'] <+: l) : name = name' := by
  obtain ⟨below, rfl⟩ := h
  obtain ⟨below', heq⟩ := h'
  rw [List.append_assoc, List.append_assoc, List.append_right_inj] at heq
  exact (List.cons.inj heq).1.symm

/-- The disk after some jobs have been done, in whatever order: each of their places is as the job
has left it, and everything else is as it was. -/
structure After {n : Nat} (base : Disk) (place : Fin n → Location) (left : Fin n → Disk)
    (done : List (Fin n)) (d : Disk) : Prop where
  here : d.here = base.here
  wellFormed : d.WellFormed
  inside : ∀ i ∈ done, ∀ l, place i <+: l → d.get? l = (left i).get? l
  outside : ∀ l, (∀ i ∈ done, ¬ place i <+: l) → d.get? l = base.get? l

namespace After

variable {n : Nat} {base d d' : Disk} {place : Fin n → Location} {left : Fin n → Disk}
  {done done' : List (Fin n)} {i : Fin n}

theorem nil (hd : base.WellFormed) : After base place left [] base :=
  ⟨rfl, hd, fun _ hi => absurd hi List.not_mem_nil, fun _ _ => rfl⟩

/-- The order does not matter. -/
theorem same (h : After base place left done d) (h' : After base place left done' d')
    (hperm : done.Perm done') : Same d d' := by
  refine ⟨h'.here.trans h.here.symm, fun l => ?_⟩
  by_cases hin : ∃ i ∈ done, place i <+: l
  · obtain ⟨i, hi, hl⟩ := hin
    rw [h.inside i hi l hl, h'.inside i (hperm.mem_iff.mp hi) l hl]
  · have hout : ∀ i ∈ done, ¬ place i <+: l := fun i hi hl => hin ⟨i, hi, hl⟩
    rw [h.outside l hout, h'.outside l fun i hi => hout i (hperm.mem_iff.mpr hi)]

/-- One job more. -/
theorem step (hplaces : ∀ i j l, place i <+: l → place j <+: l → i = j)
    (h : After base place left done d) (hi : i ∉ done) (hd : Beside (place i) d d')
    (hleft : ∀ l, place i <+: l → d'.get? l = (left i).get? l) :
    After base place left (done ++ [i]) d' where
  here := hd.here.trans h.here
  wellFormed := hd.wellFormed h.wellFormed
  inside j hj l hl := by
    rcases List.mem_append.mp hj with hj | hj
    · have hother : ¬ place i <+: l := fun hl' => hi (hplaces i j l hl' hl ▸ hj)
      rw [hd.outside l hother, h.inside j hj l hl]
    · rw [List.mem_singleton.mp hj] at hl ⊢
      exact hleft l hl
  outside l hl := by
    have hi' := hl i (List.mem_append_right done List.mem_cons_self)
    rw [hd.outside l hi', h.outside l fun j hj => hl j (List.mem_append_left [i] hj)]

end After

end Disk

namespace Scheduler

variable {s : Scheduler} {h : Host} {w w' : World} {jobs : List Job}

/-! ## Courses -/

/-- The outcome that is made of how verifying a job went. -/
def outcomeOf (job : Job) : Except Fault Outcome → Outcome
  | .ok o => o
  | .error f => .failed job (errorText f)

theorem Settled.eq_outcomeOf {job : Job} {r : Except Fault Outcome} {o : Outcome}
    (ho : Settled job r o) : o = outcomeOf job r := by
  cases r with
  | ok o' => exact ho.returned o' rfl
  | error f => exact ho.raised f rfl

/-- The first turn of a run. -/
theorem Turns.uncons {job : Job} {os : List Outcome} (ht : Turns s h w (job :: jobs) os w') :
    ∃ o os' w₁, os = o :: os' ∧ Settled job ((s.verify job).run h w).1 o ∧
      w₁.deeds = ((s.verify job).run h w).2.deeds ∧ Turns s h w₁ jobs os' w' := by
  cases ht with
  | next hset hd rest => exact ⟨_, _, _, rfl, hset, hd, rest⟩

/-- Whatever jobs have been done, a job comes to the same and starts the same processes; and what
has been done determines which disks there can be. -/
structure Course (s : Scheduler) (h : Host) (jobs : List Job)
    (state : List (Fin jobs.length) → Disk → Prop)
    (result : Fin jobs.length → Except Fault Outcome)
    (started : Fin jobs.length → List Call) : Prop where
  step : ∀ done i w, i ∉ done → state done w.disk →
    ((s.verify (jobs.get i)).run h w).1 = result i ∧
      ((s.verify (jobs.get i)).run h w).2.calls = w.calls ++ started i ∧
      state (done ++ [i]) ((s.verify (jobs.get i)).run h w).2.disk
  same : ∀ done done' d d', done.Perm done' → state done d → state done' d' → d.Same d'

variable {state : List (Fin jobs.length) → Disk → Prop}
  {result : Fin jobs.length → Except Fault Outcome} {started : Fin jobs.length → List Call}

/-- **A run of a course**, step by step. -/
theorem Course.turns (hc : s.Course h jobs state result started) :
    ∀ (is done : List (Fin jobs.length)) (w : World) {os : List Outcome} {w' : World},
      (done ++ is).Nodup → state done w.disk → Turns s h w (is.map jobs.get) os w' →
      os = is.map (fun i => outcomeOf (jobs.get i) (result i)) ∧
        w'.calls = w.calls ++ is.flatMap started ∧ state (done ++ is) w'.disk
  | [], done, w, os, w', _, hw, ht => by
    cases ht
    exact ⟨rfl, by rw [List.flatMap_nil, List.append_nil], by rwa [List.append_nil]⟩
  | i :: is, done, w, os, w', hn, hw, ht => by
    obtain ⟨o, os, w₁, rfl, hset, hd, rest⟩ := ht.uncons
    have hi : i ∉ done := fun hi => (List.nodup_append.mp hn).2.2 i hi i List.mem_cons_self rfl
    obtain ⟨hresult, hcalls, hstate⟩ := hc.step done i w hi hw
    rw [← disk_of_deeds hd] at hstate
    rw [List.append_cons] at hn
    obtain ⟨hos, hcalls', hstate'⟩ := hc.turns is (done ++ [i]) w₁ hn hstate rest
    refine ⟨?_, ?_, ?_⟩
    · rw [hset.eq_outcomeOf, hresult, hos, List.map_cons]
    · rw [hcalls', calls_of_deeds hd, hcalls, List.flatMap_cons, List.append_assoc]
    · rwa [List.append_cons]

/-- Outcomes that do not depend on the order are put back as they are. -/
theorem inOrder_map {order : List (Fin jobs.length)}
    (hn : order.Perm (List.finRange jobs.length)) (f : Fin jobs.length → Outcome) :
    inOrder order (order.map f) = (List.finRange jobs.length).map f := by
  obtain ⟨g, hg, hmem⟩ := inOrder_eq_map hn (List.length_map f)
  rw [hg]
  refine List.map_congr_left fun i _ => ?_
  have hi := hmem i
  rw [← List.map_prod_left_eq_zip] at hi
  obtain ⟨j, -, hj⟩ := List.mem_map.mp hi
  rw [Prod.mk.injEq] at hj
  obtain ⟨rfl, hf⟩ := hj
  exact hf.symm

/-- **A run of a course in any order**: its suite, its processes and its disk. -/
theorem Course.runInOrder_run (hs : s.Proper) (hc : s.Course h jobs state result started)
    (hw : state [] w.disk) {p : Pool} (hp : ∀ n, p ≠ .closed n) (workers : Int)
    {order : List (Fin jobs.length)} (hn : order.Perm (List.finRange jobs.length)) :
    ∃ p' w', (s.runInOrder p jobs workers order).run h w =
        (.ok (Suite.ofOutcomes s.backendName ((List.finRange jobs.length).map fun i =>
          outcomeOf (jobs.get i) (result i)), p'), w') ∧
      w'.calls = w.calls ++ order.flatMap started ∧ state order w'.disk := by
  obtain ⟨_, w₁, hr, -⟩ := (announce_returns jobs.length).run h w
  have hd := (keeps_deeds_announce jobs.length).of_run hr
  have htakes : Takes p workers jobs := .of_not_closed hp
  obtain ⟨p', hpool⟩ := poolFor_ok htakes
  obtain ⟨os, w', hrun, ht⟩ := mapM_runOne_run hs h (order.map jobs.get) w₁
  have hnodup : ([] ++ order).Nodup := by
    rw [List.nil_append]
    exact hn.nodup_iff.mpr (List.nodup_finRange _)
  obtain ⟨hos, hcalls, hstate⟩ := hc.turns order [] w₁ hnodup (by rwa [disk_of_deeds hd]) ht
  refine ⟨p', w', ?_, by rw [hcalls, calls_of_deeds hd], by rwa [List.nil_append] at hstate⟩
  unfold runInOrder
  rw [Action.bind_of_ok hr, hpool, Action.bind_of_ok (Action.ofExcept_run _ h w₁),
    Action.bind_of_ok hrun, hos, inOrder_map hn]
  rfl

/-- A run comes to the same as the sequential one: the same suite, the same processes in some order,
and the same disk. -/
def Independent (s : Scheduler) (p : Pool) (jobs : List Job) (h : Host) (w : World) : Prop :=
  ∀ (workers : Int) (order : List (Fin jobs.length)), order.Perm (List.finRange jobs.length) →
    ∃ suite p₁ p₂ w₁ w₂, (s.run p jobs 1).run h w = (.ok (suite, p₁), w₁) ∧
      (s.runInOrder p jobs workers order).run h w = (.ok (suite, p₂), w₂) ∧
      w₁.calls.Perm w₂.calls ∧ w₁.disk.Same w₂.disk

theorem Course.independent (hs : s.Proper) (hc : s.Course h jobs state result started)
    (hw : state [] w.disk) {p : Pool} (hp : ∀ n, p ≠ .closed n) : s.Independent p jobs h w := by
  intro workers order hn
  obtain ⟨p₁, w₁, hr₁, hcalls₁, hstate₁⟩ :=
    hc.runInOrder_run hs hw hp 1 (List.Perm.refl (List.finRange jobs.length))
  obtain ⟨p₂, w₂, hr₂, hcalls₂, hstate₂⟩ := hc.runInOrder_run hs hw hp workers hn
  rw [← run_eq_runInOrder hs] at hr₁
  refine ⟨_, p₁, p₂, w₁, w₂, hr₁, hr₂, ?_, hc.same _ _ _ _ hn.symm hstate₁ hstate₂⟩
  rw [hcalls₁, hcalls₂]
  exact (hn.symm.flatMap_right started).append_left w.calls

end Scheduler

end Assay
