import Assay.Proofs.Verification
import Assay.Schedule
import Mathlib.Data.List.FinRange

/-!
# One outcome for every job

A scheduler takes up its jobs one after the other, in their own order or, with several workers, in
whatever order the workers get to them. `runInOrder` runs the jobs in any order and `run` is its
case of the order of the jobs (`run_eq_runInOrder`).

* `Settled`: what one job comes to. Its outcome is the one that verifying it returned, or a record
  of the fault.
* `Turns`: a whole run as a chain of such steps, in the order in which the jobs are taken up.
* `Accounts`: what a suite says about such a run, job by job and in its sums.

`runInOrder_accounts` puts them together: a run goes through, and its suite accounts for the jobs,
unless it needs a pool that was shut down (`run_closed`).
-/

namespace Assay

open Assay.Action (Keeps Returns)

namespace Suite

/-- The verdict is that of the first outcome that did not pass, or `verified` if all passed. -/
inductive FirstFailure : List Outcome → Verdict → Prop where
  | none {os : List Outcome} (hv : ∀ o ∈ os, o.verdict = .verified) : FirstFailure os .verified
  | first {pre post : List Outcome} {o : Outcome} (hpre : ∀ o' ∈ pre, o'.verdict = .verified)
    (ho : o.verdict ≠ .verified) : FirstFailure (pre ++ o :: post) o.verdict

theorem verdictOf_cons (o : Outcome) (os : List Outcome) :
    verdictOf (o :: os) = if o.verdict = .verified then verdictOf os else o.verdict := by
  unfold verdictOf
  by_cases hv : o.verdict = .verified
  · rw [if_pos hv, List.find?_cons_of_neg]
    simp [Verdict.passed, hv]
  · rw [if_neg hv, List.find?_cons_of_pos]
    · rfl
    · simp [Verdict.passed, hv]

theorem firstFailure_verdictOf (os : List Outcome) : FirstFailure os (verdictOf os) := by
  induction os with
  | nil => exact .none fun o ho => absurd ho List.not_mem_nil
  | cons o os ih =>
    rw [verdictOf_cons]
    by_cases hv : o.verdict = .verified
    · rw [if_pos hv]
      generalize verdictOf os = v at ih
      cases ih with
      | none hos =>
        refine .none fun o' ho' => ?_
        rcases List.mem_cons.mp ho' with rfl | ho'
        · exact hv
        · exact hos o' ho'
      | @first pre post o₁ hpre ho =>
        show FirstFailure ((o :: pre) ++ o₁ :: post) o₁.verdict
        refine .first (fun o' ho' => ?_) ho
        rcases List.mem_cons.mp ho' with rfl | ho'
        · exact hv
        · exact hpre o' ho'
    · rw [if_neg hv]
      exact .first (fun o' ho' => absurd ho' List.not_mem_nil) hv

theorem FirstFailure.eq_verified_iff {os : List Outcome} {v : Verdict} (hf : FirstFailure os v) :
    v = .verified ↔ ∀ o ∈ os, o.verdict = .verified := by
  cases hf with
  | none hv => exact ⟨fun _ => hv, fun _ => rfl⟩
  | @first pre post o hpre ho =>
    refine ⟨fun hv => absurd hv ho, fun hall => ?_⟩
    exact hall o (List.mem_append_right _ List.mem_cons_self)

/-- The sums of a suite are those of its outcomes. -/
structure Adds (suite : Suite) : Prop where
  total : suite.total = suite.outcomes.length
  passed : suite.passed = (suite.outcomes.filter fun o => o.verdict = .verified).length
  failed : suite.failed = suite.total - suite.passed
  verdict : FirstFailure suite.outcomes suite.verdict

theorem adds_ofOutcomes (backend : String) (os : List Outcome) : (ofOutcomes backend os).Adds where
  total := rfl
  passed := by
    have hpassed : (fun o : Outcome => o.verdict.passed) =
        fun o => decide (o.verdict = .verified) := funext fun o => rfl
    show ((passedCount os : Nat) : Int) = _
    rw [passedCount, List.countP_eq_length_filter, hpassed]
    rfl
  failed := rfl
  verdict := firstFailure_verdictOf os

/-- If everything is verified, everything has passed. -/
theorem Adds.of_all_verified {suite : Suite} (ha : suite.Adds)
    (hv : ∀ o ∈ suite.outcomes, o.verdict = .verified) :
    suite.passed = suite.total ∧ suite.failed = 0 := by
  have hall : (suite.outcomes.filter fun o => o.verdict = .verified) = suite.outcomes :=
    List.filter_eq_self.mpr fun o ho => decide_eq_true (hv o ho)
  have hpassed : suite.passed = suite.total := by
    rw [ha.passed, ha.total, hall]
  refine ⟨hpassed, ?_⟩
  rw [ha.failed, hpassed, Int.sub_self]

end Suite

theorem Pool.absent_ne_closed (n : Int) : Pool.absent ≠ .closed n := by
  intro hn
  cases hn

namespace Scheduler

variable {s : Scheduler} {h : Host} {w w' : World} {job : Job} {jobs : List Job}

/-! ## One job -/

/-- The outcome of a job that ended without one. -/
def Crashed (o : Outcome) : Prop :=
  o.verdict = .unknown ∧ o.expectation = none ∧ o.stats = [] ∧ o.counterexamples = [] ∧
    o.error.isSome

/-- The outcome is called after the job. It is what verifying the job returned or, exactly if that
failed, a record of the fault. -/
structure Settled (job : Job) (r : Except Fault Outcome) (o : Outcome) : Prop where
  displayName : o.displayName = job.displayName
  entrySymbol : o.entrySymbol = job.entrySymbol
  returned : ∀ o', r = .ok o' → o = o'
  raised : ∀ f, r = .error f → o = .failed job (errorText f)
  crashed : (∃ f, r = .error f) ↔ Crashed o

theorem settled_ok {o : Outcome} (ho : Checker.Names job o) : Settled job (.ok o) o where
  displayName := ho.1
  entrySymbol := ho.2.1
  returned o' ho' := by
    cases ho'
    rfl
  raised f hf := by cases hf
  crashed := by
    constructor
    · rintro ⟨f, hf⟩
      cases hf
    · -- an outcome with an error that was returned has the verdict `error`
      rintro ⟨hv, -, -, -, he⟩
      rw [ho.2.2 he] at hv
      cases hv

theorem settled_error (job : Job) (f : Fault) :
    Settled job (.error f) (.failed job (errorText f)) where
  displayName := rfl
  entrySymbol := rfl
  returned o' ho' := by cases ho'
  raised f' hf' := by
    cases hf'
    rfl
  crashed := ⟨fun _ => ⟨rfl, rfl, rfl, rfl, rfl⟩, fun _ => ⟨f, rfl⟩⟩

theorem logFault_returns (s : Scheduler) (job : Job) (f : Fault) :
    Returns (s.logFault job f) fun _ => True := by
  unfold logFault
  split
  · exact (Action.returns_log _ _ _).seq fun _ => Action.returns_log _ _ _
  · exact Action.returns_log _ _ _

theorem keeps_deeds_logFault (s : Scheduler) (job : Job) (f : Fault) :
    Keeps World.deeds (s.logFault job f) := by
  unfold logFault
  split
  · exact (Action.keeps_deeds_log _ _ _).bind fun _ => Action.keeps_deeds_log _ _ _
  · exact Action.keeps_deeds_log _ _ _

/-- A way of verifying that takes up the job it is given and no other, and names its outcomes after
it. -/
structure Proper (s : Scheduler) : Prop where
  started : ∀ job h w, ((s.verify job).run h w).2.started = w.started ++ [job]
  names : ∀ job, Action.Yields (s.verify job) (Checker.Names job)

theorem proper_ofChecker (k : Checker) (c : Config) : (ofChecker k c).Proper where
  started := k.verify_started
  names := k.verify_yields

/-- Whatever comes of verifying a job, it is settled, and nothing more is done. -/
theorem settle_run (hs : s.Proper) (job : Job) (h : Host) (w : World) :
    ∃ o w', (s.settle job).run h w = (.ok o, w') ∧ Settled job ((s.verify job).run h w).1 o ∧
      w'.deeds = ((s.verify job).run h w).2.deeds := by
  unfold settle
  rw [Action.bind_of_ok (Action.attempt_run _ h w)]
  rcases hv : (s.verify job).run h w with ⟨f | o, w₀⟩
  · obtain ⟨_, w₁, hr, -⟩ := (s.logFault_returns job f).run h w₀
    have hd := (s.keeps_deeds_logFault job f).of_run hr
    dsimp only
    rw [Action.bind_of_ok hr]
    exact ⟨.failed job (errorText f), w₁, rfl, settled_error job f, hd⟩
  · exact ⟨o, w₀, rfl, settled_ok (hs.names job h w o w₀ hv), rfl⟩

/-- **One step of a run**: the job is verified once, and after that there is only talk. -/
theorem runOne_run (hs : s.Proper) (job : Job) (h : Host) (w : World) :
    ∃ o w', (s.runOne job).run h w = (.ok o, w') ∧ Settled job ((s.verify job).run h w).1 o ∧
      w'.deeds = ((s.verify job).run h w).2.deeds := by
  obtain ⟨o, w₁, hr, hset, hd⟩ := s.settle_run hs job h w
  obtain ⟨_, w₂, hp, -⟩ := (Action.returns_print (s.progress o)).run h w₁
  have hd₂ := (Action.keeps_deeds_print (s.progress o)).of_run hp
  unfold runOne
  rw [Action.bind_of_ok hr, Action.bind_of_ok hp]
  exact ⟨o, w₂, rfl, hset, hd₂.trans hd⟩

/-! ## A run -/

/-- Jobs taken up one after the other, each verified once and followed by talk at most. -/
inductive Turns (s : Scheduler) (h : Host) : World → List Job → List Outcome → World → Prop where
  | done (w : World) : Turns s h w [] [] w
  | next {w w₁ w' : World} {job : Job} {o : Outcome} {jobs : List Job} {os : List Outcome}
      (hset : Settled job ((s.verify job).run h w).1 o)
      (hd : w₁.deeds = ((s.verify job).run h w).2.deeds)
      (rest : Turns s h w₁ jobs os w') : Turns s h w (job :: jobs) (o :: os) w'

namespace Turns

variable {os : List Outcome}

theorem length_eq (ht : Turns s h w jobs os w') : os.length = jobs.length := by
  induction ht with
  | done w => rfl
  | next hset hd rest ih => rw [List.length_cons, List.length_cons, ih]

/-- Every job is taken up once, in this order, and no other. -/
theorem started (hs : s.Proper) (ht : Turns s h w jobs os w') :
    w'.started = w.started ++ jobs := by
  induction ht with
  | done w => rw [List.append_nil]
  | @next w w₁ w' job o jobs os hset hd rest ih =>
    have hw : w₁.started = w.started ++ [job] := by
      rw [← hs.started job h w]
      exact started_of_deeds hd
    rw [ih, hw, List.append_assoc, List.singleton_append]

/-- Every outcome is called after the job that it stands with. -/
theorem names (ht : Turns s h w jobs os w') :
    ∀ t ∈ jobs.zip os, t.2.displayName = t.1.displayName ∧ t.2.entrySymbol = t.1.entrySymbol := by
  induction ht with
  | done w => exact fun t ht => absurd ht List.not_mem_nil
  | next hset hd rest ih =>
    intro t ht
    rw [List.zip_cons_cons] at ht
    rcases List.mem_cons.mp ht with rfl | ht
    · exact ⟨hset.displayName, hset.entrySymbol⟩
    · exact ih t ht

end Turns

/-- **A run of any jobs** goes through, one turn for each job. -/
theorem mapM_runOne_run (hs : s.Proper) (h : Host) :
    ∀ (jobs : List Job) (w : World), ∃ os w', (jobs.mapM s.runOne).run h w = (.ok os, w') ∧
      Turns s h w jobs os w'
  | [], w => ⟨[], w, rfl, .done w⟩
  | job :: jobs, w => by
    obtain ⟨o, w₁, hr, hset, hd⟩ := s.runOne_run hs job h w
    obtain ⟨os, w', hrest, ht⟩ := mapM_runOne_run hs h jobs w₁
    rw [List.mapM_cons, Action.bind_of_ok hr, Action.bind_of_ok hrest]
    exact ⟨o :: os, w', rfl, .next hset hd ht⟩

/-! ## Any order -/

variable {order : List (Fin jobs.length)} {os : List Outcome}

/-- The outcomes of jobs taken up in this order, put back into the order of the jobs. -/
def inOrder (order : List (Fin jobs.length)) (os : List Outcome) : List Outcome :=
  (List.finRange jobs.length).filterMap fun i => (order.zip os).lookup i

/-- Verifies every job with this number of workers, in whatever order the workers take them up. -/
def runInOrder (s : Scheduler) (p : Pool) (jobs : List Job) (workers : Int)
    (order : List (Fin jobs.length)) : Action (Suite × Pool) := do
  announce jobs.length
  let p ← Action.ofExcept (poolFor p workers jobs)
  let outcomes ← (order.map jobs.get).mapM s.runOne
  return (Suite.ofOutcomes s.backendName (inOrder order outcomes), p)

theorem lookup_zip_of_mem {α β : Type} [DecidableEq α] :
    ∀ {is : List α} {os : List β}, is.Nodup → ∀ t ∈ is.zip os, (is.zip os).lookup t.1 = some t.2
  | [], _, _, t, ht => absurd ht List.not_mem_nil
  | i :: is, [], _, t, ht => by
    rw [List.zip_nil_right] at ht
    exact absurd ht List.not_mem_nil
  | i :: is, o :: os, hn, t, ht => by
    rw [List.zip_cons_cons] at ht ⊢
    obtain ⟨hi, hn⟩ := List.nodup_cons.mp hn
    rcases List.mem_cons.mp ht with rfl | ht
    · exact List.lookup_cons_self
    · have hne : t.1 ≠ i := fun he => hi (he ▸ (List.of_mem_zip ht).1)
      rw [List.lookup_cons, beq_false_of_ne hne]
      exact lookup_zip_of_mem hn t ht

theorem exists_mem_zip {α β : Type} {is : List α} {os : List β} (hl : os.length = is.length)
    {i : α} (hi : i ∈ is) : ∃ o, (i, o) ∈ is.zip os := by
  have hfst : (is.zip os).map Prod.fst = is := List.map_fst_zip hl.ge
  rw [← hfst] at hi
  obtain ⟨t, ht, rfl⟩ := List.mem_map.mp hi
  exact ⟨t.2, ht⟩

theorem filterMap_finRange {β : Type} {n : Nat} {f : Fin n → Option β} {g : Fin n → β}
    (hf : ∀ i, f i = some (g i)) : (List.finRange n).filterMap f = (List.finRange n).map g := by
  rw [funext hf, List.filterMap_eq_map']

section Order

variable (hn : order.Perm (List.finRange jobs.length)) (hl : os.length = order.length)

include hn hl

/-- Every job has its outcome, at its own place. -/
theorem inOrder_eq_map :
    ∃ g : Fin jobs.length → Outcome, inOrder order os = (List.finRange jobs.length).map g ∧
      ∀ i, (i, g i) ∈ order.zip os := by
  have hmem : ∀ i, ∃ o, (i, o) ∈ order.zip os := fun i =>
    exists_mem_zip hl (hn.mem_iff.mpr (List.mem_finRange i))
  choose g hg using hmem
  have hnodup : order.Nodup := hn.nodup_iff.mpr (List.nodup_finRange _)
  exact ⟨g, filterMap_finRange fun i => lookup_zip_of_mem hnodup _ (hg i), hg⟩

end Order

/-- In the order of the jobs nothing has to be put back. -/
theorem inOrder_finRange (hl : os.length = jobs.length) :
    inOrder (List.finRange jobs.length) os = os := by
  obtain ⟨g, hg, hmem⟩ := inOrder_eq_map (List.Perm.refl (List.finRange jobs.length))
    (hl.trans List.length_finRange.symm)
  rw [hg]
  refine List.ext_getElem (by simp [hl]) fun i hi hi' => ?_
  have hi₀ : i < jobs.length := hl ▸ hi'
  obtain ⟨j, hj, heq⟩ := List.mem_iff_getElem.mp (hmem ⟨i, hi₀⟩)
  rw [List.getElem_zip, List.getElem_finRange, Prod.mk.injEq, Fin.ext_iff] at heq
  obtain ⟨hij, hos⟩ := heq
  simp only [Fin.val_cast] at hij
  subst hij
  rw [List.getElem_map, List.getElem_finRange]
  exact hos.symm

theorem announce_returns (count : Nat) : Returns (announce count) fun _ => True :=
  Action.returns_print _

theorem keeps_deeds_announce (count : Nat) : Keeps World.deeds (announce count) :=
  Action.keeps_deeds_printLine _

theorem run_eq_runInOrder (hs : s.Proper) (p : Pool) (jobs : List Job) (workers : Int) :
    s.run p jobs workers = s.runInOrder p jobs workers (List.finRange jobs.length) := by
  refine bind_congr fun _ => bind_congr fun p' => ?_
  refine Action.ext fun h w => ?_
  obtain ⟨os, w', hr, ht⟩ := mapM_runOne_run hs h jobs w
  rw [List.map_get_finRange, Action.bind_of_ok hr, Action.bind_of_ok hr,
    inOrder_finRange ht.length_eq]

/-- What a suite says about a run of jobs that were taken up in this order: every job has been
verified once, and its outcome stands at its place. -/
structure Accounts (s : Scheduler) (h : Host) (w : World) (jobs : List Job)
    (order : List (Fin jobs.length)) (suite : Suite) (w' : World) : Prop where
  /-- The run is a chain of turns, and each turn's outcome stands at the place of its job. -/
  turns : ∃ w₁ os, w₁.deeds = w.deeds ∧ Turns s h w₁ (order.map jobs.get) os w' ∧
    os.length = order.length ∧ ∀ t ∈ order.zip os, suite.outcomes[t.1.val]? = some t.2
  started : w'.started = w.started ++ order.map jobs.get
  names : suite.outcomes.map (fun o => (o.displayName, o.entrySymbol)) =
    jobs.map fun job => (job.displayName, job.entrySymbol)
  total : suite.total = jobs.length
  adds : suite.Adds
  backend : suite.backend = s.backendName

theorem names_inOrder (hn : order.Perm (List.finRange jobs.length))
    (ht : Turns s h w (order.map jobs.get) os w') :
    (inOrder order os).map (fun o => (o.displayName, o.entrySymbol)) =
      jobs.map fun job => (job.displayName, job.entrySymbol) := by
  have hl : os.length = order.length := ht.length_eq.trans (List.length_map _)
  obtain ⟨g, hg, hmem⟩ := inOrder_eq_map hn hl
  conv_rhs => rw [← List.map_get_finRange jobs]
  rw [hg, List.map_map, List.map_map]
  refine List.map_congr_left fun i _ => ?_
  have hzip : (jobs.get i, g i) ∈ (order.map jobs.get).zip os := by
    rw [List.zip_map_left]
    exact List.mem_map.mpr ⟨(i, g i), hmem i, rfl⟩
  obtain ⟨hname, hentry⟩ := ht.names _ hzip
  exact Prod.ext hname hentry

theorem getElem?_inOrder (hn : order.Perm (List.finRange jobs.length))
    (hl : os.length = order.length) :
    ∀ t ∈ order.zip os, (inOrder order os)[t.1.val]? = some t.2 := by
  intro t ht
  obtain ⟨g, hg, hmem⟩ := inOrder_eq_map hn hl
  have hnodup : order.Nodup := hn.nodup_iff.mpr (List.nodup_finRange _)
  have hlookup := lookup_zip_of_mem hnodup _ (hmem t.1)
  rw [lookup_zip_of_mem hnodup t ht] at hlookup
  rw [hg, List.getElem?_map, List.getElem?_eq_getElem (by simp), List.getElem_finRange]
  exact hlookup.symm

theorem accounts_ofOutcomes (hs : s.Proper) {w₁ : World} (hd : w₁.deeds = w.deeds)
    (hn : order.Perm (List.finRange jobs.length))
    (ht : Turns s h w₁ (order.map jobs.get) os w') :
    s.Accounts h w jobs order (Suite.ofOutcomes s.backendName (inOrder order os)) w' := by
  have hl : os.length = order.length := ht.length_eq.trans (List.length_map _)
  have hnames := names_inOrder hn ht
  have hlength : (inOrder order os).length = jobs.length := by
    have := congrArg List.length hnames
    rwa [List.length_map, List.length_map] at this
  refine ⟨⟨w₁, os, hd, ht, hl, getElem?_inOrder hn hl⟩, ?_, hnames, ?_,
    Suite.adds_ofOutcomes _ _, rfl⟩
  · rw [ht.started hs, started_of_deeds hd]
  · exact congrArg Nat.cast hlength

/-- The pool was not shut down, or it is not needed for these jobs. -/
def Takes (p : Pool) (workers : Int) (jobs : List Job) : Prop :=
  isSequential workers jobs = true ∨ ∀ n, p ≠ .closed n

theorem Takes.of_not_closed {p : Pool} (hp : ∀ n, p ≠ .closed n) {workers : Int} :
    Takes p workers jobs :=
  .inr hp

theorem poolFor_ok {p : Pool} {workers : Int} (hp : Takes p workers jobs) :
    ∃ p', poolFor p workers jobs = .ok p' := by
  unfold poolFor
  split
  case isTrue => exact ⟨p, rfl⟩
  case isFalse hseq =>
    have hw : ¬ workers < 1 := by
      intro hlt
      apply hseq
      rw [isSequential, Bool.or_eq_true, decide_eq_true_eq]
      exact .inl (by omega)
    cases p with
    | absent => exact ⟨.ready workers, if_neg hw⟩
    | ready n => exact ⟨.ready n, rfl⟩
    | closed n => exact absurd rfl (hp.resolve_left hseq n)

/-- Another pool takes no jobs. -/
theorem poolFor_error {p : Pool} {workers : Int} (hp : ¬ Takes p workers jobs) :
    poolFor p workers jobs = .error .poolClosed := by
  have hseq : ¬ isSequential workers jobs = true := fun h => hp (.inl h)
  unfold poolFor
  rw [if_neg hseq]
  cases p with
  | absent => exact absurd (.inr nofun) hp
  | ready n => exact absurd (.inr nofun) hp
  | closed n => rfl

/-- A run in any order goes through, and its suite accounts for the jobs. -/
theorem runInOrder_run (hs : s.Proper) {p : Pool} {workers : Int} (hp : Takes p workers jobs)
    (hn : order.Perm (List.finRange jobs.length)) (h : Host) (w : World) :
    ∃ suite p' w', (s.runInOrder p jobs workers order).run h w = (.ok (suite, p'), w') ∧
      s.Accounts h w jobs order suite w' := by
  obtain ⟨_, w₁, hr, -⟩ := (announce_returns jobs.length).run h w
  have hd := (keeps_deeds_announce jobs.length).of_run hr
  obtain ⟨p', hpool⟩ := poolFor_ok hp
  obtain ⟨os, w', hrun, ht⟩ := mapM_runOne_run hs h (order.map jobs.get) w₁
  refine ⟨_, p', w', ?_, accounts_ofOutcomes hs hd hn ht⟩
  unfold runInOrder
  rw [Action.bind_of_ok hr, hpool, Action.bind_of_ok (Action.ofExcept_run _ h w₁),
    Action.bind_of_ok hrun]
  rfl

theorem accounts_of_run (hs : s.Proper) {p p' : Pool} {workers : Int} (hp : Takes p workers jobs)
    {suite : Suite} (hr : (s.run p jobs workers).run h w = (.ok (suite, p'), w')) :
    s.Accounts h w jobs (List.finRange jobs.length) suite w' := by
  obtain ⟨suite₁, p₁, w₁, hr₁, ha⟩ := runInOrder_run hs hp (List.Perm.refl _) h w
  rw [← run_eq_runInOrder hs, hr] at hr₁
  cases hr₁
  exact ha

/-- **A pool that was shut down** and is needed ends a run before any job is taken up. -/
theorem run_closed {p : Pool} {workers : Int} (hp : ¬ Takes p workers jobs) (h : Host)
    (w : World) :
    ∃ w', (s.run p jobs workers).run h w = (.error .poolClosed, w') ∧ w'.deeds = w.deeds := by
  obtain ⟨_, w', hr, -⟩ := (announce_returns jobs.length).run h w
  refine ⟨w', ?_, (keeps_deeds_announce jobs.length).of_run hr⟩
  unfold run
  rw [Action.bind_of_ok hr, poolFor_error hp]
  rfl

end Scheduler

end Assay
