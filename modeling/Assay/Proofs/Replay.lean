import Assay.Proofs.Diagnosis

/-!
# Replays account for every input

The listed inputs of a job take their turns one after the other: `Replayer.turns` is the list of the
turns, told from how processes behave and from nothing that a replay does.

`replayOutcome_accounts` is the main result. Turn by turn, in the order of the list, there is one
heading; one process if the backend is KLEE and the input is a file by then, and none otherwise; one
transcript if the process was started; and one warning if there is no transcript. No turn ends the
replays but those at which they stop, `Replayer.Stops`: there a fault is not turned into a warning.

The step is `taken_of_not_stuck`, for one turn; `Accounts.cons` puts the turns together.
-/

namespace Assay

open Assay.Action

namespace Replayer

section

variable (r : Replayer) (job : Job) (h : Host)

/-- The turns of these inputs, when these processes have been started and the disk is this one. -/
def turns : List String → List Call → Disk → List Turn
  | [], _, _ => []
  | x :: rest, calls, disk =>
    let t : Turn := ⟨x, calls, disk⟩
    t :: turns rest (calls ++ (r.call? job h t).toList) (r.after job h t)

/-- Between these worlds the turns were taken: what was printed, started and warned about is what
belongs to each of them, in their order, and the disk is as the last one leaves it. -/
structure Accounts (ts : List Turn) (w w' : World) : Prop where
  grows : w.Grows w' (ts.flatMap (r.printed job h)) (ts.filterMap (r.call? job h))
    (ts.filterMap (r.warning? job h))
  disk : w'.disk = (ts.getLast?.map (r.after job h)).getD w.disk

end

variable {r : Replayer} {job : Job} {h : Host} {w w₁ w' : World} {t : Turn} {ts : List Turn}
  {x : String} {p : Path}

theorem filterMap_cons_toList {α β : Type} (f : α → Option β) (a : α) (l : List α) :
    (a :: l).filterMap f = (f a).toList ++ l.filterMap f := by
  cases hf : f a with
  | none =>
    rw [List.filterMap_cons_none hf]
    rfl
  | some b =>
    rw [List.filterMap_cons_some hf]
    rfl

theorem accounts_nil : r.Accounts job h [] w w :=
  ⟨.of_tally rfl, rfl⟩

/-- One turn, and those that follow. -/
theorem Accounts.cons (hx : w.Grows w₁ (r.printed job h t) (r.call? job h t).toList
      (r.warning? job h t).toList) (hd : w₁.disk = r.after job h t)
    (hts : r.Accounts job h ts w₁ w') : r.Accounts job h (t :: ts) w w' where
  grows := by
    rw [List.flatMap_cons, filterMap_cons_toList, filterMap_cons_toList]
    exact hx.trans hts.grows
  disk := by
    rw [hts.disk, hd, List.getLast?_cons]
    cases ts.getLast? <;> rfl

/-! ## All turns -/

theorem mapM_accounts (hs : ∀ p ∈ r.script, Script.Begun p) (job : Job) (h : Host) :
    ∀ (xs : List String) (w : World), (∀ t ∈ r.turns job h xs w.calls w.disk, ¬ r.Stuck job h t) →
      ∃ w', (xs.mapM (r.replayListed job)).run h w =
          (.ok ((r.turns job h xs w.calls w.disk).map (r.transcript? job h)), w') ∧
        r.Accounts job h (r.turns job h xs w.calls w.disk) w w'
  | [], w, _ => ⟨w, rfl, accounts_nil⟩
  | x :: xs, w, hclear => by
    obtain ⟨w₁, htaken⟩ := taken_of_not_stuck hs job h (hclear _ List.mem_cons_self)
    have hrest : r.turns job h (x :: xs) w.calls w.disk =
        ⟨x, w.calls, w.disk⟩ :: r.turns job h xs w₁.calls w₁.disk := by
      rw [htaken.grows.calls, htaken.disk]
      rfl
    rw [hrest] at hclear ⊢
    obtain ⟨w', hr, haccounts⟩ := mapM_accounts hs job h xs w₁
      fun t ht => hclear t (List.mem_cons_of_mem _ ht)
    refine ⟨w', ?_, haccounts.cons htaken.grows htaken.disk⟩
    rw [List.mapM_cons, bind_of_ok htaken.returned, bind_of_ok hr]
    rfl

/-- What is left of a turn at which the replays end: its heading, its call, and what the host has
done to the disk. -/
structure Broken (r : Replayer) (job : Job) (h : Host) (t : Turn) (w w' : World) : Prop where
  grows : w.Grows w' ["    Test input " ++ t.input ++ "\n"] (r.call? job h t).toList []
  disk : w'.disk = r.after job h t

theorem mapM_stops (hs : ∀ p ∈ r.script, Script.Begun p) (job : Job) (h : Host)
    {xs : List String} {w : World} {before rest : List Turn} {t : Turn} {f : Fault}
    (hsplit : r.turns job h xs w.calls w.disk = before ++ t :: rest)
    (hclear : ∀ b ∈ before, ¬ r.Stuck job h b) (hstops : r.Stops job h t f) :
    ∃ w₁ w', r.Accounts job h before w w₁ ∧ r.Broken job h t w₁ w' ∧
      (xs.mapM (r.replayListed job)).run h w = (.error f, w') := by
  induction xs generalizing w before with
  | nil => exact absurd hsplit.symm (List.append_ne_nil_of_right_ne_nil _ (List.cons_ne_nil _ _))
  | cons x xs ih =>
    rw [List.mapM_cons]
    cases before with
    | nil =>
      obtain ⟨rfl, -⟩ := List.cons_eq_cons.mp hsplit
      obtain ⟨w', hr, hgrows, hdisk⟩ := listed_of_stops hstops
      exact ⟨w, w', accounts_nil, ⟨hgrows, hdisk⟩, bind_of_error hr _⟩
    | cons b before =>
      obtain ⟨rfl, htail⟩ := List.cons_eq_cons.mp hsplit
      obtain ⟨w₁, htaken⟩ := taken_of_not_stuck hs job h (hclear _ List.mem_cons_self)
      have hnext : r.turns job h xs w₁.calls w₁.disk = before ++ t :: rest := by
        rw [htaken.grows.calls, htaken.disk]
        exact htail
      obtain ⟨w₂, w', haccounts, hbroken, hr⟩ :=
        ih hnext fun b hb => hclear b (List.mem_cons_of_mem _ hb)
      refine ⟨w₂, w', haccounts.cons htaken.grows htaken.disk, hbroken, ?_⟩
      rw [bind_of_ok htaken.returned, bind_of_error hr]

theorem input_turns (r : Replayer) (job : Job) (h : Host) :
    ∀ (xs : List String) (calls : List Call) (disk : Disk),
      (r.turns job h xs calls disk).map Turn.input = xs
  | [], _, _ => rfl
  | x :: xs, calls, disk => by
    rw [turns, List.map_cons, input_turns r job h xs]

/-- **Replays account for every input.** Each listed input has its turn. If it can be told of all of
them whether they are there, and the calls of those that are there are carried out, then there is a
result: one transcript for every process that was started, and for every other turn one warning. If
not, then this is so up to the first turn at which that fails, and there the replays end with its
fault. On a host that heeds what is wrong with calls, that is a path that is too long or a null
character in the call, `stops_iff_of_heeds`. -/
theorem replayOutcome_accounts (r : Replayer) (job : Job) (o : Outcome) (h : Host) (w : World)
    (hs : ∀ p ∈ r.script, Script.Begun p) :
    let ts := r.turns job h o.counterexamples w.calls w.disk
    ts.map Turn.input = o.counterexamples ∧
      ((∀ t ∈ ts, ¬ r.Stuck job h t) → ∃ w', (r.replayOutcome job o).run h w =
          (.ok (ts.filterMap (r.transcript? job h)), w') ∧ r.Accounts job h ts w w') ∧
      ∀ before t rest f, ts = before ++ t :: rest → (∀ b ∈ before, ¬ r.Stuck job h b) →
        r.Stops job h t f → ∃ w₁ w', r.Accounts job h before w w₁ ∧ r.Broken job h t w₁ w' ∧
          (r.replayOutcome job o).run h w = (.error f, w') := by
  refine ⟨input_turns r job h _ _ _, fun hclear => ?_,
    fun before t rest f hsplit hclear hstops => ?_⟩
  · obtain ⟨w', hr, haccounts⟩ := mapM_accounts hs job h _ w hclear
    refine ⟨w', ?_, haccounts⟩
    unfold replayOutcome
    rw [bind_of_ok hr, pure_run, List.filterMap_map]
    rfl
  · obtain ⟨w₁, w', haccounts, hbroken, hr⟩ := mapM_stops hs job h hsplit hclear hstops
    refine ⟨w₁, w', haccounts, hbroken, ?_⟩
    unfold replayOutcome
    rw [bind_of_error hr]

/-! ### An input that is listed twice -/

def sampleInput : Path :=
  ⟨.relative, ["a.ktest"]⟩

def sampleReplayer : Replayer :=
  ⟨.klee, Config.standard 1, none⟩

/-- A host whose processes take their input away and panic. -/
def taking : Host where
  environment := [("RUSTFLAGS", "-g")]
  installed _ := true
  processors := 1
  pinned _ := false
  behave _ _ d := (⟨[], d.here⟩, .ended 101 [] [98, 111, 111, 109, 10] false)

def inputDisk : Disk :=
  ⟨[(Disk.keyOf ["a.ktest"], .file [])], []⟩

/-- An outcome in which an input is listed twice. -/
def listedTwice : Outcome :=
  ⟨"t", "t", .error, none, none, [], 0, ["a.ktest", "a.ktest"]⟩

/-- The sample path is one name in the working directory. -/
theorem isFile?_sampleInput {d : Disk} {e : Option Entry} (hd : d.here = [])
    (hget : d.get? ["a.ktest"] = e) (he : ∀ x ∈ e, x = .file []) :
    d.isFile? sampleInput.text = .ok e.isSome := by
  have hhere : d.directoryAt? Disk.hereDir = some [] :=
    (Disk.directoryAt?_hereDir d).trans (congrArg some hd)
  have hplain : ∀ t, d.get? ["a.ktest"] ≠ some (.link t) := fun t ht => by
    cases he _ (hget.symm.trans ht)
  have hlook : d.look .target sampleInput.text = .ok (d.get? ["a.ktest"]) :=
    Disk.look_child Disk.proper_hereDir (by decide) hhere .target (.inr hplain)
  unfold Disk.isFile?
  rw [hlook, hget]
  cases e with
  | none => rfl
  | some x =>
    obtain rfl := he x rfl
    rfl

def firstTurn : Turn := ⟨"a.ktest", [], inputDisk⟩

def takingCall : Call :=
  ⟨["cargo", "run", "--manifest-path", "Cargo.toml"], none,
    [("RUSTFLAGS", "-g --cfg=verify"), ("KTEST_FILE", "a.ktest")], none⟩

def secondTurn : Turn := ⟨"a.ktest", [takingCall], ⟨[], []⟩⟩

theorem firstTurn_there : firstTurn.disk.isFile? firstTurn.path.text = .ok true :=
  isFile?_sampleInput (d := inputDisk) (e := some (.file [])) rfl (by decide) (by decide)

theorem secondTurn_gone : secondTurn.disk.isFile? secondTurn.path.text = .ok false :=
  isFile?_sampleInput (d := ⟨[], []⟩) (e := none) rfl (by decide) (by decide)

theorem firstTurn_call : sampleReplayer.call? Checker.sampleJob taking firstTurn = some takingCall ∧
    sampleReplayer.ending? Checker.sampleJob taking firstTurn =
      some (⟨[], []⟩, .ended 101 [] [98, 111, 111, 109, 10] false) := by
  obtain ⟨hcall, hending⟩ := ending?_eq (r := sampleReplayer) Checker.sampleJob taking rfl
    (there_of_isFile firstTurn_there)
  have hmade : (⟨sampleReplayer.command Checker.sampleJob, none, bindings taking firstTurn.path,
      none⟩ : Call) = takingCall := by
    decide
  exact ⟨hmade ▸ hcall, hending⟩

theorem firstTurn_transcript : sampleReplayer.transcript? Checker.sampleJob taking firstTurn =
    some ⟨sampleInput, ["boom"], 101⟩ := by
  have hlines : Text.linesOf (Text.decodeLossy []) ++
      Text.linesOf (Text.decodeLossy [98, 111, 111, 109, 10]) = ["boom"] := by
    decide
  unfold transcript?
  rw [firstTurn_call.2]
  dsimp only
  rw [hlines]
  rfl

theorem secondTurn_idle : sampleReplayer.call? Checker.sampleJob taking secondTurn = none :=
  if_neg fun hx => Bool.false_ne_true ((there_of_isFile secondTurn_gone).symm.trans hx.2)

theorem turns_sample :
    sampleReplayer.turns Checker.sampleJob taking listedTwice.counterexamples [] inputDisk =
      [firstTurn, secondTurn] := by
  have hafter : sampleReplayer.after Checker.sampleJob taking firstTurn = ⟨[], []⟩ := by
    unfold after
    rw [firstTurn_call.2]
    rfl
  have hturns : sampleReplayer.turns Checker.sampleJob taking listedTwice.counterexamples []
      inputDisk = [firstTurn, ⟨"a.ktest",
        (sampleReplayer.call? Checker.sampleJob taking firstTurn).toList,
        sampleReplayer.after Checker.sampleJob taking firstTurn⟩] := rfl
  rw [hturns, firstTurn_call.1, hafter]
  rfl

/-- The first of two turns takes the input away from the second. -/
theorem replayOutcome_accounts_sample :
    (∀ p ∈ sampleReplayer.script, Script.Begun p) ∧ ∃ w',
      (sampleReplayer.replayOutcome Checker.sampleJob listedTwice).run taking
          (World.begin inputDisk) = (.ok [⟨sampleInput, ["boom"], 101⟩], w') ∧
        w'.output = ["    Test input a.ktest\n", "boom\n", "    Test input a.ktest\n"] ∧
        w'.calls = [takingCall] ∧
        w'.warnings =
          [.warning .replay "Failed to replay: Counterexample 'a.ktest' does not exist"] := by
  have hs : ∀ p ∈ sampleReplayer.script, Script.Begun p := fun p hp => by cases hp
  obtain ⟨-, hall, -⟩ := replayOutcome_accounts sampleReplayer Checker.sampleJob listedTwice taking
    (World.begin inputDisk) hs
  have hturns : sampleReplayer.turns Checker.sampleJob taking listedTwice.counterexamples
      (World.begin inputDisk).calls (World.begin inputDisk).disk = [firstTurn, secondTurn] :=
    turns_sample
  rw [hturns] at hall
  obtain ⟨hidle, hnone, -⟩ := idle_of_call secondTurn_idle
  have hclear : ∀ t ∈ [firstTurn, secondTurn], ¬ sampleReplayer.Stuck Checker.sampleJob taking t := by
    intro t ht
    rcases List.mem_pair.mp ht with rfl | rfl
    · refine not_stuck_of_isFile firstTurn_there fun d f he => ?_
      rw [firstTurn_call.2] at he
      cases he
    · refine not_stuck_of_isFile secondTurn_gone fun d f he => ?_
      rw [hidle] at he
      cases he
  obtain ⟨w', hr, ⟨hgrows, -⟩⟩ := hall hclear
  have hreason : sampleReplayer.reason Checker.sampleJob taking secondTurn =
      "Counterexample 'a.ktest' does not exist" := by
    unfold reason
    rw [if_pos (there_of_isFile secondTurn_gone)]
    rfl
  refine ⟨hs, w', ?_, ?_, ?_, ?_⟩
  · rw [hr, List.filterMap_cons_some firstTurn_transcript, List.filterMap_cons_none hnone]
    rfl
  · rw [hgrows.output]
    simp only [List.flatMap_cons, List.flatMap_nil, printed, firstTurn_transcript, hnone]
    rfl
  · rw [hgrows.calls, List.filterMap_cons_some firstTurn_call.1,
      List.filterMap_cons_none secondTurn_idle]
    rfl
  · have hsecond : sampleReplayer.warning? Checker.sampleJob taking secondTurn = some
        (.warning .replay "Failed to replay: Counterexample 'a.ktest' does not exist") := by
      unfold warning?
      rw [hnone, hreason]
      rfl
    have hfirst : sampleReplayer.warning? Checker.sampleJob taking firstTurn = none := by
      unfold warning?
      rw [firstTurn_transcript]
      rfl
    rw [hgrows.warnings, List.filterMap_cons_none hfirst, List.filterMap_cons_some hsecond]
    rfl

/-! ### An input with a long name -/

/-- An input that is not there, and whose name is longer than any that a disk takes. -/
def longPath : Path :=
  Checker.samplePlace.child Run.longInput

def longDisk : Disk :=
  Run.leftDisk Run.longFailure

theorem longPath_stops : sampleReplayer.Stops Checker.sampleJob taking
    ⟨longPath.text, [], longDisk⟩
    (.disk (.ofErrno .nameTooLong (Path.parse longPath.text).text)) := by
  have hparse : Path.parse longPath.text = longPath :=
    Path.parse_text (Checker.proper_samplePlace.child Run.isPart_longInput)
      (Path.child_parts_ne_nil _ _)
  refine .untold ?_
  unfold Turn.path
  rw [hparse]
  exact Run.tooLong_longInput Run.longFailure

/-- **Replays can end early**: such an input is a fault and no warning. -/
theorem replayOutcome_stops_early :
    let ending := (sampleReplayer.replayOutcome Checker.sampleJob
      { listedTwice with counterexamples := [longPath.text] }).run taking (World.begin longDisk)
    (∀ p ∈ sampleReplayer.script, Script.Begun p) ∧ (∃ f, ending.1 = .error f) ∧
      ending.2.warnings = [] := by
  have hs : ∀ p ∈ sampleReplayer.script, Script.Begun p := nofun
  have hturns : sampleReplayer.turns Checker.sampleJob taking [longPath.text]
      (World.begin longDisk).calls (World.begin longDisk).disk =
        [] ++ ⟨longPath.text, [], longDisk⟩ :: [] := rfl
  obtain ⟨w₁, w', haccounts, hbroken, hr⟩ :=
    mapM_stops hs Checker.sampleJob taking hturns nofun longPath_stops
  dsimp only
  unfold replayOutcome
  rw [bind_of_error hr]
  refine ⟨hs, ⟨_, rfl⟩, ?_⟩
  show w'.warnings = []
  rw [hbroken.grows.warnings, haccounts.grows.warnings]
  rfl

end Replayer

end Assay
