import Assay.Proofs.Call
import Assay.Proofs.Command
import Assay.Replay

/-!
# One replay

A listed input has its turn when those before it are through. What becomes of it depends on the
processes that were started by then and on the disk as these have left it: `Replayer.Turn` is an
input with both. What it comes to is told from how processes behave, and from nothing that a replay
does.

Whatever goes wrong with a replay is a warning, with two exceptions, `Replayer.Stops`. The operating
system may not be able to tell whether the input is there, since a name on its path is too long; and
the host may not carry out the call for the process, as with a null character in a word of it,
`stops_iff_of_heeds`. These faults end all replays. `replayListed_error_iff` says that there are no
more of them.

The step is `taken_of_not_stuck` for a turn that ends as it should, and `listed_of_stops` for others.
-/

namespace Assay

open Assay.Action

/-! ## Paths that cannot be followed -/

namespace Disk

variable {d : Disk} {aim : Aim} {links : Nat} {loc : Location} {names : List String} {e : Errno}

/-- A name on the way, or the path itself, is too long. -/
def TooLong (d : Disk) (path : String) : Prop :=
  hasNull path = false ∧ d.find .target path = .error .nameTooLong

/-- Unless a file is to be made, nothing else than absence and too long names ends a walk. -/
theorem walk_error (ha : aim ≠ .content) (hw : d.walk aim links loc names = .error e) :
    isAbsence e = true ∨ e = .nameTooLong := by
  fun_induction walk d aim links loc names with
  | case1 | case6 | case9 | case11 => cases hw
  | case2 links loc name rest hskip ih => exact ih hw
  | case3 links loc rest hskip ih => exact ih hw
  | case4 links loc name rest hskip hup hslash =>
    rw [Bool.and_eq_true, decide_eq_true_eq] at hslash
    exact absurd hslash.1 ha
  | case5 =>
    cases hw
    exact .inr rfl
  | case7 | case10 | case12 =>
    cases hw
    exact .inl rfl
  | case8 links loc name rest hskip hup hslash hlong hget ih => exact ih hw
  | case13 loc name rest hskip hup hslash hlong target hget hend links start ih => exact ih hw

/-- What keeps a path from being followed is absence or a name that is too long. -/
theorem find_error {path : String} (ha : aim ≠ .content) (hf : d.find aim path = .error e) :
    isAbsence e = true ∨ e = .nameTooLong := by
  unfold find at hf
  dsimp only at hf
  split at hf
  case isTrue =>
    cases hf
    exact .inl rfl
  case isFalse =>
    split at hf
    case isTrue =>
      cases hf
      exact .inr rfl
    case isFalse => exact walk_error ha hf

/-- Whether a file is there can be told unless the path is too long. -/
theorem isFile?_error_iff {path : String} :
    (∃ f, d.isFile? path = .error f) ↔ d.TooLong path := by
  unfold isFile? look TooLong
  cases hn : hasNull path with
  | true => simp [Except.map]
  | false =>
    rw [if_neg Bool.false_ne_true]
    cases hf : d.find .target path with
    | ok found => cases found <;> simp [Except.map]
    | error e =>
      rcases find_error (by simp) hf with ha | rfl
      · have hne : e ≠ .nameTooLong := by
          rintro rfl
          cases ha
        simp [ha, hne, Except.map]
      · simp [isAbsence, Except.map]

theorem isFile?_of_tooLong {path : String} (hp : d.TooLong path) :
    d.isFile? path = .error (.ofErrno .nameTooLong path) := by
  unfold isFile? look
  rw [if_neg (Bool.eq_false_iff.mp hp.1), hp.2]
  rfl

end Disk

/-! ## The process of a replay -/

/-- The script was begun, so it is at a place where a file can be. -/
def Script.Begun (p : Path) : Prop :=
  ∃ h w w', (Script.create p).run h w = (.ok (), w')

namespace Replayer

/-- The command of a replay. -/
def process (r : Replayer) (words : List String) (environment : List (String × String)) : Command :=
  { Command.ofWords words with environment := environment, script := r.script }

theorem process_recordable {r : Replayer} (hs : ∀ p ∈ r.script, Script.Begun p) (words : List String)
    (environment : List (String × String)) : ¬ (r.process words environment).Unrecordable := by
  rintro ⟨p, hp, hn⟩
  obtain ⟨h, w, w', hcreate⟩ := hs p hp
  rw [Script.hasNull_of_create hcreate] at hn
  cases hn

theorem command_cargo (r : Replayer) (job : Job) :
    ∃ arguments, r.command job = "cargo" :: arguments := by
  unfold command
  dsimp only
  split
  · exact ⟨_, rfl⟩
  · exact ⟨_, rfl⟩

/-- A listed input when its turn comes: the processes started by then, and the disk. -/
structure Turn where
  input : String
  calls : List Call
  disk : Disk

namespace Turn

def path (t : Turn) : Path :=
  Path.parse t.input

/-- The input is an existing regular file. -/
def there (t : Turn) : Bool :=
  (t.disk.isFile? t.path.text).toOption.getD false

end Turn

/-! ## What becomes of a turn -/

/-- The flags that the program is built with: those of the environment, if there are any, and the
one for replays. -/
def flags (h : Host) : String :=
  let inherited := (h.value? "RUSTFLAGS").getD ""
  if inherited = "" then "--cfg=verify" else inherited ++ " --cfg=verify"

/-- The variables besides the inherited ones for a process that is to read this input. -/
def bindings (h : Host) (p : Path) : List (String × String) :=
  [("RUSTFLAGS", flags h), ("KTEST_FILE", p.text)]

section

variable (r : Replayer) (job : Job) (h : Host)

/-- The process of a turn. Only KLEE has one, and only for an input that is there. -/
def call? (t : Turn) : Option Call :=
  if r.backend = .klee ∧ t.there = true then some ⟨r.command job, none, bindings h t.path, none⟩
  else none

/-- How the process of a turn ends, and the disk that it leaves. -/
def ending? (t : Turn) : Option (Disk × Ending) :=
  (r.call? job h t).map fun c => h.behave t.calls c t.disk

/-- What ends all replays at a turn, and not the turn alone: the operating system cannot tell whether
the input is there, since its path is too long, or the host does not carry out the call for the
process. -/
inductive Stops (t : Turn) : Fault → Prop where
  | untold (ht : t.disk.TooLong t.path.text) :
    Stops t (.disk (.ofErrno .nameTooLong t.path.text))
  | abandoned {d : Disk} {f : CallFault} (he : r.ending? job h t = some (d, .abandoned f)) :
    Stops t (.call f)

def Stuck (t : Turn) : Prop :=
  ∃ f, r.Stops job h t f

/-- The transcript of a turn whose process was started. -/
def transcript? (t : Turn) : Option Transcript :=
  match r.ending? job h t with
  | some (_, .ended code out err _) =>
    some ⟨t.path, Text.linesOf (Text.decodeLossy out) ++ Text.linesOf (Text.decodeLossy err),
      code⟩
  | _ => none

/-- Why there is no transcript. -/
def reason (t : Turn) : String :=
  if t.there = false then "Counterexample '" ++ t.path.text ++ "' does not exist"
  else
    match r.ending? job h t with
    | some (_, .refused f) => "FAILED: unable to run 'cargo': " ++ f.message
    | _ => "The " ++ r.backend.name ++ " backend does not support '--replay'"

/-- The warning of a turn that comes to no transcript. -/
def warning? (t : Turn) : Option LogRecord :=
  if (r.transcript? job h t).isSome then none
  else some (.warning .replay ("Failed to replay: " ++ r.reason job h t))

/-- The texts printed in a turn: the heading, and the lines of the transcript. -/
def printed (t : Turn) : List String :=
  ("    Test input " ++ t.input ++ "\n") ::
    (((r.transcript? job h t).map Transcript.lines).getD []).map fun line => line ++ "\n"

/-- The disk after a turn, with the record of its process in the script. -/
def after (t : Turn) : Disk :=
  match r.ending? job h t with
  | none => t.disk
  | some (d, .refused _) | some (d, .abandoned _) => d
  | some (d, .ended code out err _) =>
    (r.process (r.command job) (bindings h t.path)).recorded
      ⟨code, Text.decodeLossy out, Text.decodeLossy err, false⟩ d

end

variable {r : Replayer} {job : Job} {h : Host} {w w₁ w' : World} {t : Turn} {x : String} {p : Path}

/-! ## The process -/

theorem environment_klee (hb : r.backend = .klee) (h : Host) (p : Path) :
    r.environment h p = .ok (bindings h p) := by
  unfold environment
  rw [hb]
  simp only [inputName?]
  unfold Host.setting? bindings flags
  cases h.value? "RUSTFLAGS" with
  | none => rfl
  | some inherited =>
    by_cases he : inherited = ""
    · subst he
      rfl
    · have hfilter : (some inherited).filter (fun s => !s.isEmpty) = some inherited := by
        simp [Option.filter, he]
      rw [hfilter]
      simp [he, buildFlag, String.append_assoc]

theorem environment_other (hb : r.backend ≠ .klee) (h : Host) (p : Path) :
    r.environment h p = .error (.unsupported r.backend.name) := by
  have hname : inputName? r.backend = none := by
    cases hk : r.backend with
    | klee => exact absurd hk hb
    | _ => rfl
  unfold environment
  rw [hname]

section Execute

variable {program : String} {arguments : List String} {environment : List (String × String)}
  {d : Disk}

theorem execute_ok {words : List String} {capture : Capture}
    (hr : (r.process words environment).run.run h w = (.ok capture, w')) :
    (r.execute words environment).run h w = (.ok capture, w') := by
  show ((attempt (r.process words environment).run >>= _ : Action Capture).run h w) = _
  rw [bind_of_ok (attempt_run _ h w), hr]
  rfl

theorem execute_fault {words : List String} {f : JobFault}
    (hr : (r.process words environment).run.run h w = (.error (.job f), w')) :
    (r.execute words environment).run h w = (.error (.replay (.notRun f)), w') := by
  show ((attempt (r.process words environment).run >>= _ : Action Capture).run h w) = _
  rw [bind_of_ok (attempt_run _ h w), hr]
  rfl

theorem execute_lost {words : List String} {f : CallFault}
    (hr : (r.process words environment).run.run h w = (.error (.call f), w')) :
    (r.execute words environment).run h w = (.error (.call f), w') := by
  show ((attempt (r.process words environment).run >>= _ : Action Capture).run h w) = _
  rw [bind_of_ok (attempt_run _ h w), hr]
  rfl

theorem call_process (r : Replayer) (words : List String) (environment : List (String × String)) :
    (r.process words environment).call = ⟨words, none, environment, none⟩ := rfl

/-- A program that cannot be started is a fault of the replay. -/
theorem execute_refused {f : OsFault}
    (hb : h.behave w.calls ⟨program :: arguments, none, environment, none⟩ w.disk =
      (d, .refused f)) :
    ∃ w', (r.execute (program :: arguments) environment).run h w =
        (.error (.replay (.notRun (.cannotSpawn program f))), w') ∧
      w.Grows w' [] [⟨program :: arguments, none, environment, none⟩] [] ∧ w'.disk = d := by
  obtain ⟨w₁, hgrows, hdisk, hr⟩ := Command.run_spawned
    (c := r.process (program :: arguments) environment) rfl nofun h w
  rw [call_process, hb] at hdisk hr
  exact ⟨w₁, execute_fault hr, hgrows, hdisk⟩

/-- A call that is not carried out is a fault of its own. -/
theorem execute_abandoned {f : CallFault}
    (hb : h.behave w.calls ⟨program :: arguments, none, environment, none⟩ w.disk =
      (d, .abandoned f)) :
    ∃ w', (r.execute (program :: arguments) environment).run h w = (.error (.call f), w') ∧
      w.Grows w' [] [⟨program :: arguments, none, environment, none⟩] [] ∧ w'.disk = d := by
  obtain ⟨w₁, hgrows, hdisk, hr⟩ := Command.run_spawned
    (c := r.process (program :: arguments) environment) rfl nofun h w
  rw [call_process, hb] at hdisk hr
  exact ⟨w₁, execute_lost hr, hgrows, hdisk⟩

/-- One that can be started hands its output over. -/
theorem execute_ended (hs : ∀ p ∈ r.script, Script.Begun p) {code : Int} {out err : Text.Bytes}
    {overruns : Bool}
    (hb : h.behave w.calls ⟨program :: arguments, none, environment, none⟩ w.disk =
      (d, .ended code out err overruns)) :
    ∃ w', (r.execute (program :: arguments) environment).run h w =
        (.ok ⟨code, Text.decodeLossy out, Text.decodeLossy err, false⟩, w') ∧
      w.Grows w' [] [⟨program :: arguments, none, environment, none⟩] [] ∧
      w'.disk = (r.process (program :: arguments) environment).recorded
        ⟨code, Text.decodeLossy out, Text.decodeLossy err, false⟩ d := by
  have hrecord := process_recordable hs (program :: arguments) environment
  generalize hc : r.process (program :: arguments) environment = c at hrecord ⊢
  have hcall : c.call = ⟨program :: arguments, none, environment, none⟩ := by rw [← hc]; rfl
  have hwords : c.words = program :: arguments := by rw [← hc]; rfl
  have hlimit : c.limit = none := by rw [← hc]; rfl
  have hmust : c.mustSucceed = false := by rw [← hc]; rfl
  have hdecode : c.decode = Text.decodeLossy := by rw [← hc]; rfl
  obtain ⟨w₁, hgrows, hdisk, hr⟩ := c.run_spawned hwords (by rw [hlimit]; exact nofun) h w
  rw [hcall, hb] at hdisk hr
  obtain ⟨w', hfinish, hgrows', hdisk'⟩ := Command.finish_run (c := c) hlimit hmust hrecord h w₁
  rw [hdisk, hdecode] at hdisk'
  rw [hdecode] at hfinish
  refine ⟨w', execute_ok (hc ▸ hr.trans hfinish), ?_, hdisk'⟩
  rw [← hcall]
  exact hgrows.trans hgrows'

end Execute

/-! ## One replay -/

theorem replay_untold {f : OsFault} (hq : w.disk.isFile? p.text = .error f) :
    (r.replay job p).run h w = (.error (.disk f), w) := by
  unfold replay
  rw [bind_of_error (askDisk_run_error hq)]

theorem replay_absent (hq : w.disk.isFile? p.text = .ok false) :
    (r.replay job p).run h w = (.error (.replay (.noCounterexample p.text)), w) := by
  unfold replay
  rw [bind_of_ok (askDisk_run hq)]
  rfl

theorem replay_unsupported (hq : w.disk.isFile? p.text = .ok true) (hb : r.backend ≠ .klee) :
    (r.replay job p).run h w = (.error (.replay (.unsupported r.backend.name)), w) := by
  unfold replay
  rw [bind_of_ok (askDisk_run hq), if_neg (by decide), bind_of_ok (host_run h w),
    environment_other hb]
  rfl

/-- With KLEE an input that is there is replayed. -/
theorem replay_klee (hq : w.disk.isFile? p.text = .ok true) (hb : r.backend = .klee) :
    (r.replay job p).run h w = (do
      let capture ← r.execute (r.command job) (bindings h p)
      (capture.lines [.stdout, .stderr]).forM printLine
      return ⟨p, capture.lines [.stdout, .stderr], capture.exitCode⟩ :
        Action Transcript).run h w := by
  unfold replay
  rw [bind_of_ok (askDisk_run hq), if_neg (by decide), bind_of_ok (host_run h w),
    environment_klee hb]
  rfl

theorem replay_failed (hq : w.disk.isFile? p.text = .ok true) (hb : r.backend = .klee) {e : Fault}
    (hr : (r.execute (r.command job) (bindings h p)).run h w = (.error e, w₁)) :
    (r.replay job p).run h w = (.error e, w₁) := by
  rw [replay_klee hq hb, bind_of_error hr]

theorem replay_captured (hq : w.disk.isFile? p.text = .ok true) (hb : r.backend = .klee)
    {capture : Capture}
    (hr : (r.execute (r.command job) (bindings h p)).run h w = (.ok capture, w₁)) :
    ∃ w', (r.replay job p).run h w = (.ok ⟨p, Text.linesOf capture.stdout ++
        Text.linesOf capture.stderr, capture.exitCode⟩, w') ∧
      w₁.Grows w' ((Text.linesOf capture.stdout ++ Text.linesOf capture.stderr).map
        fun line => line ++ "\n") [] [] ∧ w'.disk = w₁.disk := by
  have hlines : capture.lines [.stdout, .stderr] =
      Text.linesOf capture.stdout ++ Text.linesOf capture.stderr := by
    rw [Capture.lines_cons, Capture.lines_cons, Capture.lines_nil, List.append_nil]
    rfl
  refine ⟨{ w₁ with output := w₁.output ++ (Text.linesOf capture.stdout ++
    Text.linesOf capture.stderr).map fun line => line ++ "\n" }, ?_,
    ⟨rfl, (List.append_nil _).symm, (List.append_nil _).symm, rfl, rfl⟩, rfl⟩
  rw [replay_klee hq hb, bind_of_ok hr, hlines, bind_of_ok (forM_printLine_run h _ w₁)]
  rfl

/-! ## One turn -/

/-- The world after the heading. -/
def headed (x : String) (w : World) : World :=
  { w with output := w.output ++ [heading x ++ "\n"] }

theorem grows_headed (x : String) (w : World) : w.Grows (headed x w) [heading x ++ "\n"] [] [] :=
  ⟨rfl, (List.append_nil _).symm, (List.append_nil _).symm, rfl, rfl⟩

theorem printLine_heading_run (x : String) (h : Host) (w : World) :
    (printLine (heading x)).run h w = (.ok (), headed x w) := rfl

/-- The step of a turn: what it comes to, and what of it can be told afterwards. -/
structure Taken (r : Replayer) (job : Job) (h : Host) (t : Turn) (w w' : World) : Prop where
  returned : (r.replayListed job t.input).run h w = (.ok (r.transcript? job h t), w')
  grows : w.Grows w' (r.printed job h t) (r.call? job h t).toList (r.warning? job h t).toList
  disk : w'.disk = r.after job h t

theorem listed_of_ok {transcript : Transcript}
    (hr : (r.replay job (Path.parse x)).run h (headed x w) = (.ok transcript, w')) :
    (r.replayListed job x).run h w = (.ok (some transcript), w') := by
  unfold replayListed
  rw [bind_of_ok (printLine_heading_run x h w), bind_of_ok (attempt_run _ h _), hr]
  rfl

theorem listed_of_fault {f : ReplayFault}
    (hr : (r.replay job (Path.parse x)).run h (headed x w) = (.error (.replay f), w₁)) :
    ∃ w', (r.replayListed job x).run h w = (.ok none, w') ∧
      w₁.Grows w' [] [] [.warning .replay ("Failed to replay: " ++ f.message)] ∧
      w'.disk = w₁.disk := by
  refine ⟨_, ?_, grows_log .replay ("Failed to replay: " ++ f.message) h w₁, rfl⟩
  unfold replayListed
  rw [bind_of_ok (printLine_heading_run x h w), bind_of_ok (attempt_run _ h _), hr]
  rfl

theorem listed_of_other {f : Fault} (hf : ∀ g, f ≠ .replay g)
    (hr : (r.replay job (Path.parse x)).run h (headed x w) = (.error f, w₁)) :
    (r.replayListed job x).run h w = (.error f, w₁) := by
  unfold replayListed
  rw [bind_of_ok (printLine_heading_run x h w), bind_of_ok (attempt_run _ h _), hr]
  cases f with
  | replay g => exact absurd rfl (hf g)
  | _ => rfl

/-- A turn that comes to no transcript, for this reason. -/
theorem taken_of_fault {f : ReplayFault}
    (hr : (r.replay job t.path).run h (headed t.input w) = (.error (.replay f), w₁))
    (hgrows : (headed t.input w).Grows w₁ [] (r.call? job h t).toList [])
    (hdisk : w₁.disk = r.after job h t) (hnone : r.transcript? job h t = none)
    (hreason : r.reason job h t = f.message) : ∃ w', Taken r job h t w w' := by
  obtain ⟨w', hlisted, hwarned, hsame⟩ := listed_of_fault hr
  refine ⟨w', hnone ▸ hlisted, ?_, hsame.trans hdisk⟩
  have hall := ((grows_headed t.input w).trans hgrows).trans hwarned
  have hprinted : r.printed job h t = [heading t.input ++ "\n"] := by
    unfold printed
    rw [hnone]
    rfl
  have hwarning : r.warning? job h t =
      some (.warning .replay ("Failed to replay: " ++ f.message)) := by
    unfold warning?
    rw [hnone, hreason]
    rfl
  rw [hprinted, hwarning]
  rw [List.append_nil, List.append_nil, List.append_nil] at hall
  exact hall

/-- A turn without a process leaves the disk alone and comes to no transcript. -/
theorem idle_of_call (hc : r.call? job h t = none) :
    r.ending? job h t = none ∧ r.transcript? job h t = none ∧ r.after job h t = t.disk := by
  have hending : r.ending? job h t = none := by
    unfold ending?
    rw [hc]
    rfl
  refine ⟨hending, ?_, ?_⟩
  · unfold transcript?
    rw [hending]
  · unfold after
    rw [hending]

theorem there_of_isFile {there : Bool} (hq : t.disk.isFile? t.path.text = .ok there) :
    t.there = there := by
  unfold Turn.there
  rw [hq]
  rfl

theorem isFile_of_there (hthere : t.there = true) : t.disk.isFile? t.path.text = .ok true := by
  unfold Turn.there at hthere
  cases hq : t.disk.isFile? t.path.text with
  | error f =>
    rw [hq] at hthere
    cases hthere
  | ok there =>
    rw [hq] at hthere
    exact congrArg Except.ok hthere

theorem call?_of_tooLong (job : Job) (h : Host) (ht : t.disk.TooLong t.path.text) :
    r.call? job h t = none := by
  refine if_neg fun hx => ?_
  have hq := isFile_of_there hx.2
  rw [Disk.isFile?_of_tooLong ht] at hq
  cases hq

theorem not_stuck_of_isFile {there : Bool} (hq : t.disk.isFile? t.path.text = .ok there)
    (he : ∀ d f, r.ending? job h t ≠ some (d, .abandoned f)) : ¬ r.Stuck job h t := by
  rintro ⟨_, ht | hf⟩
  · rw [Disk.isFile?_of_tooLong ht] at hq
    cases hq
  · exact he _ _ hf

theorem taken_absent (hq : w.disk.isFile? (Path.parse x).text = .ok false) :
    ∃ w', Taken r job h ⟨x, w.calls, w.disk⟩ w w' := by
  have hthere : (⟨x, w.calls, w.disk⟩ : Turn).there = false := there_of_isFile hq
  have hc : r.call? job h ⟨x, w.calls, w.disk⟩ = none :=
    if_neg fun hx => Bool.false_ne_true (hthere ▸ hx.2)
  obtain ⟨-, hnone, hafter⟩ := idle_of_call hc
  refine taken_of_fault (replay_absent hq) ?_ ?_ hnone ?_
  · rw [hc]
    exact .of_tally rfl
  · exact hafter.symm
  · unfold reason
    rw [if_pos hthere]
    rfl

theorem taken_unsupported (hq : w.disk.isFile? (Path.parse x).text = .ok true)
    (hb : r.backend ≠ .klee) : ∃ w', Taken r job h ⟨x, w.calls, w.disk⟩ w w' := by
  have hthere : (⟨x, w.calls, w.disk⟩ : Turn).there = true := there_of_isFile hq
  have hc : r.call? job h ⟨x, w.calls, w.disk⟩ = none := if_neg fun hx => hb hx.1
  obtain ⟨hending, hnone, hafter⟩ := idle_of_call hc
  refine taken_of_fault (replay_unsupported hq hb) ?_ ?_ hnone ?_
  · rw [hc]
    exact .of_tally rfl
  · exact hafter.symm
  · unfold reason
    rw [hthere, if_neg (by decide), hending]
    rfl

section Process

variable {d : Disk}

/-- With KLEE an input that is there has its process. -/
theorem ending?_eq (job : Job) (h : Host) (hb : r.backend = .klee) (hthere : t.there = true) :
    r.call? job h t = some ⟨r.command job, none, bindings h t.path, none⟩ ∧
      r.ending? job h t =
        some (h.behave t.calls ⟨r.command job, none, bindings h t.path, none⟩ t.disk) := by
  have hc : r.call? job h t = some ⟨r.command job, none, bindings h t.path, none⟩ :=
    if_pos ⟨hb, hthere⟩
  refine ⟨hc, ?_⟩
  unfold ending?
  rw [hc]
  rfl

/-- Only KLEE has processes, and only for inputs that are there. -/
theorem call?_eq_some_iff {c : Call} : r.call? job h t = some c ↔
    (r.backend = .klee ∧ t.there = true) ∧
      c = ⟨r.command job, none, bindings h t.path, none⟩ := by
  unfold call?
  rw [Option.ite_none_right_eq_some, Option.some.injEq, eq_comm (a := c)]

theorem taken_refused (hb : r.backend = .klee)
    (hq : w.disk.isFile? (Path.parse x).text = .ok true) {f : OsFault}
    (hbehave : h.behave w.calls ⟨r.command job, none, bindings h (Path.parse x), none⟩
      w.disk = (d, .refused f)) : ∃ w', Taken r job h ⟨x, w.calls, w.disk⟩ w w' := by
  have hthere : (⟨x, w.calls, w.disk⟩ : Turn).there = true := there_of_isFile hq
  obtain ⟨hcall, hending⟩ := ending?_eq job h hb hthere
  have hend : r.ending? job h ⟨x, w.calls, w.disk⟩ = some (d, .refused f) :=
    hending.trans (congrArg some hbehave)
  obtain ⟨arguments, hwords⟩ := r.command_cargo job
  obtain ⟨w₁, hr, hgrows, hdisk⟩ := execute_refused (r := r) (w := headed x w) (hwords ▸ hbehave)
  rw [← hwords] at hr hgrows
  have hq₁ : (headed x w).disk.isFile? (Path.parse x).text = .ok true := hq
  refine taken_of_fault (replay_failed hq₁ hb hr) ?_ ?_ ?_ ?_
  · rw [hcall]
    exact hgrows
  · unfold after
    rw [hend]
    exact hdisk
  · unfold transcript?
    rw [hend]
  · unfold reason
    rw [hthere, if_neg (by decide), hend]
    rfl

theorem taken_ended (hs : ∀ p ∈ r.script, Script.Begun p) (hb : r.backend = .klee)
    (hq : w.disk.isFile? (Path.parse x).text = .ok true) {code : Int} {out err : Text.Bytes}
    {overruns : Bool}
    (hbehave : h.behave w.calls ⟨r.command job, none, bindings h (Path.parse x), none⟩
      w.disk = (d, .ended code out err overruns)) :
    ∃ w', Taken r job h ⟨x, w.calls, w.disk⟩ w w' := by
  have hthere : (⟨x, w.calls, w.disk⟩ : Turn).there = true := there_of_isFile hq
  obtain ⟨hcall, hending⟩ := ending?_eq job h hb hthere
  have hend : r.ending? job h ⟨x, w.calls, w.disk⟩ = some (d, .ended code out err overruns) :=
    hending.trans (congrArg some hbehave)
  obtain ⟨arguments, hwords⟩ := r.command_cargo job
  obtain ⟨w₁, hr, hgrows, hdisk⟩ := execute_ended (w := headed x w) hs (hwords ▸ hbehave)
  rw [← hwords] at hr hgrows hdisk
  have hq₁ : (headed x w).disk.isFile? (Path.parse x).text = .ok true := hq
  obtain ⟨w', hreplay, hprinted, hsame⟩ := replay_captured hq₁ hb hr
  have htranscript : r.transcript? job h ⟨x, w.calls, w.disk⟩ = some ⟨Path.parse x,
      Text.linesOf (Text.decodeLossy out) ++ Text.linesOf (Text.decodeLossy err), code⟩ := by
    unfold transcript?
    rw [hend]
    rfl
  refine ⟨w', htranscript ▸ listed_of_ok hreplay, ?_, ?_⟩
  · have hall := ((grows_headed x w).trans hgrows).trans hprinted
    unfold printed warning?
    rw [htranscript, hcall]
    exact hall
  · unfold after
    rw [hend]
    exact hsame.trans hdisk

end Process

/-- **One turn**: unless it is one at which the replays end, it comes to what belongs to it. -/
theorem taken_of_not_stuck (hs : ∀ p ∈ r.script, Script.Begun p) (job : Job) (h : Host)
    (hstuck : ¬ r.Stuck job h ⟨x, w.calls, w.disk⟩) :
    ∃ w', Taken r job h ⟨x, w.calls, w.disk⟩ w w' := by
  cases hq : w.disk.isFile? (Path.parse x).text with
  | error f => exact absurd ⟨_, .untold (Disk.isFile?_error_iff.mp ⟨f, hq⟩)⟩ hstuck
  | ok there =>
    cases there with
    | false => exact taken_absent hq
    | true =>
      by_cases hb : r.backend = .klee
      · rcases hbehave : h.behave w.calls ⟨r.command job, none, bindings h (Path.parse x), none⟩
          w.disk with ⟨d, f | f | ⟨code, out, err, overruns⟩⟩
        · exact taken_refused hb hq hbehave
        · have hthere : (⟨x, w.calls, w.disk⟩ : Turn).there = true := there_of_isFile hq
          obtain ⟨-, hending⟩ := ending?_eq job h hb hthere
          exact absurd ⟨_, .abandoned (hending.trans (congrArg some hbehave))⟩ hstuck
        · exact taken_ended hs hb hq hbehave
      · exact taken_unsupported hq hb

/-- **A turn at which the replays end** comes to this fault, and to no more than its heading and its
call. -/
theorem listed_of_stops {f : Fault} (hstops : r.Stops job h ⟨x, w.calls, w.disk⟩ f) :
    ∃ w', (r.replayListed job x).run h w = (.error f, w') ∧
      w.Grows w' [heading x ++ "\n"] (r.call? job h ⟨x, w.calls, w.disk⟩).toList [] ∧
      w'.disk = r.after job h ⟨x, w.calls, w.disk⟩ := by
  cases hstops with
  | untold ht =>
    have hq : (headed x w).disk.isFile? (Path.parse x).text =
        .error (.ofErrno .nameTooLong (Path.parse x).text) := Disk.isFile?_of_tooLong ht
    have hc := call?_of_tooLong (r := r) job h ht
    obtain ⟨-, -, hafter⟩ := idle_of_call hc
    refine ⟨headed x w, listed_of_other nofun (replay_untold hq), ?_, hafter.symm⟩
    rw [hc]
    exact grows_headed x w
  | @abandoned d f he =>
    obtain ⟨c, hcall, hbehave⟩ := Option.map_eq_some_iff.mp he
    obtain ⟨⟨hb, hthere⟩, rfl⟩ := call?_eq_some_iff.mp hcall
    have hq : (⟨x, w.calls, w.disk⟩ : Turn).disk.isFile? _ = .ok true := isFile_of_there hthere
    obtain ⟨arguments, hwords⟩ := r.command_cargo job
    obtain ⟨w₁, hr, hgrows, hdisk⟩ :=
      execute_abandoned (r := r) (w := headed x w) (hwords ▸ hbehave)
    rw [← hwords] at hr hgrows
    have hq₁ : (headed x w).disk.isFile? (Path.parse x).text = .ok true := hq
    refine ⟨w₁, listed_of_other nofun (replay_failed hq₁ hb hr), ?_, ?_⟩
    · rw [hcall]
      exact (grows_headed x w).trans hgrows
    · unfold after
      rw [he]
      exact hdisk

/-- **No other fault ends the replays.** -/
theorem replayListed_error_iff (hs : ∀ p ∈ r.script, Script.Begun p) (job : Job) (x : String)
    (h : Host) (w : World) {f : Fault} :
    ((r.replayListed job x).run h w).1 = .error f ↔ r.Stops job h ⟨x, w.calls, w.disk⟩ f := by
  constructor
  · intro hf
    by_cases hstuck : r.Stuck job h ⟨x, w.calls, w.disk⟩
    · obtain ⟨g, hstops⟩ := hstuck
      obtain ⟨w', hr, -⟩ := listed_of_stops hstops
      rw [hr] at hf
      cases hf
      exact hstops
    · obtain ⟨w', htaken⟩ := taken_of_not_stuck hs job h hstuck
      rw [htaken.returned] at hf
      cases hf
  · intro hstops
    obtain ⟨w', hr, -⟩ := listed_of_stops hstops
    rw [hr]

/-! ## Null characters -/

theorem hasNull_iff_mem {s : String} : Disk.hasNull s = true ↔ Char.ofNat 0 ∈ s.toList := by
  rw [Disk.hasNull, List.contains_iff_mem]

theorem mem_intercalate {c : Char} {sep : List Char} (hc : c ∉ sep) :
    ∀ ls : List (List Char), c ∈ sep.intercalate ls ↔ ∃ l ∈ ls, c ∈ l
  | [] => by simp [List.intercalate]
  | [l] => by simp [List.intercalate]
  | l :: l' :: ls => by
    have ih := mem_intercalate hc (l' :: ls)
    rw [List.intercalate_cons_cons, List.mem_append, List.mem_append, ih]
    simp [hc]

theorem hasNull_joinWith (ss : List String) :
    Disk.hasNull (Text.joinWith "," ss) = true ↔ ∃ s ∈ ss, Disk.hasNull s = true := by
  rw [hasNull_iff_mem, Text.toList_joinWith, mem_intercalate (by decide)]
  constructor
  · rintro ⟨_, hl, hc⟩
    obtain ⟨s, hs, rfl⟩ := List.mem_map.mp hl
    exact ⟨s, hs, hasNull_iff_mem.mpr hc⟩
  · rintro ⟨s, hs, hc⟩
    exact ⟨_, List.mem_map_of_mem hs, hasNull_iff_mem.mp hc⟩

/-- The words of a replay in which there can be null characters are the path of the manifest, the
features, and the test or the program's arguments. -/
theorem hasNull_command_iff (r : Replayer) (job : Job) :
    (∃ s ∈ r.command job, Disk.hasNull s = true) ↔
      Disk.hasNull r.config.manifestPath.text = true ∨
        (∃ feature ∈ r.config.splitFeatures, Disk.hasNull feature = true) ∨
        if r.config.verifyingTests then Disk.hasNull job.displayName = true
        else ∃ a ∈ r.config.args, Disk.hasNull a = true := by
  have hfixed : ∀ s ∈ ["cargo", "test", "run", "--manifest-path", "--features", "--", "--nocapture"],
      Disk.hasNull s = false := by decide
  simp only [List.forall_mem_cons] at hfixed
  obtain ⟨hcargo, htest, hrun, hmanifest, hfeatures, hdashes, hcapture, -⟩ := hfixed
  have hsome : (∃ s ∈ if r.config.splitFeatures.isEmpty = true then [] else
        ["--features", Text.joinWith "," r.config.splitFeatures], Disk.hasNull s = true) ↔
      ∃ feature ∈ r.config.splitFeatures, Disk.hasNull feature = true := by
    rw [← hasNull_joinWith r.config.splitFeatures]
    cases r.config.splitFeatures with
    | nil => simp [Text.joinWith, hasNull_iff_mem]
    | cons f fs => simp [hfeatures]
  have hargs : (∃ s ∈ if r.config.args.isEmpty = true then [] else "--" :: r.config.args,
        Disk.hasNull s = true) ↔ ∃ a ∈ r.config.args, Disk.hasNull a = true := by
    cases r.config.args with
    | nil => simp
    | cons a as => simp [hdashes]
  rw [← hsome, ← hargs]
  unfold command
  dsimp only
  split
  · simp only [List.mem_append, or_and_right, exists_or]
    simp [hcargo, htest, hmanifest, hdashes, hcapture, or_assoc]
  · simp only [List.mem_append, or_and_right, exists_or]
    simp [hcargo, hrun, hmanifest, or_assoc]

/-- The texts of a replay's call in which there can be null characters: those of its command, and
the flags of the environment. The input's path has none. -/
theorem hasNull_call_iff {c : Call} (hc : r.call? job h t = some c) : c.hasNull = true ↔
    (∃ s ∈ r.command job, Disk.hasNull s = true) ∨ Disk.hasNull (flags h) = true := by
  obtain ⟨⟨-, hthere⟩, rfl⟩ := call?_eq_some_iff.mp hc
  have hinput : ¬ Disk.hasNull t.path.text = true := by
    intro hn
    have hq := isFile_of_there hthere
    unfold Disk.isFile? Disk.look at hq
    rw [if_pos hn] at hq
    cases hq
  have hnames : ¬ Disk.hasNull "RUSTFLAGS" = true ∧ ¬ Disk.hasNull "KTEST_FILE" = true := by decide
  rw [Call.hasNull_iff]
  simp [Call.texts, bindings, hinput, hnames, or_and_right, exists_or]

/-- **On a host that heeds what is wrong with a call** the replays end at a path that is too long, or
at a process whose call holds a null character. -/
theorem stops_iff_of_heeds (hh : h.Heeds) {f : Fault} : r.Stops job h t f ↔
    t.disk.TooLong t.path.text ∧ f = .disk (.ofErrno .nameTooLong t.path.text) ∨
      ∃ c ∈ r.call? job h t, c.hasNull = true ∧ f = .call .nullByte := by
  constructor
  · rintro (ht | he)
    · exact .inl ⟨ht, rfl⟩
    · obtain ⟨c, hc, hbehave⟩ := Option.map_eq_some_iff.mp he
      obtain ⟨-, rfl⟩ := call?_eq_some_iff.mp hc
      obtain ⟨hn, rfl⟩ := (hh.abandoned_unlimited_iff rfl).mp (congrArg Prod.snd hbehave)
      exact .inr ⟨_, hc, hn, rfl⟩
  · rintro (⟨ht, rfl⟩ | ⟨c, hc, hn, rfl⟩)
    · exact .untold ht
    · obtain ⟨-, rfl⟩ := call?_eq_some_iff.mp hc
      have hbehave : (h.behave t.calls ⟨r.command job, none, bindings h t.path, none⟩ t.disk).2 =
          .abandoned .nullByte := (hh.abandoned_unlimited_iff rfl).mpr ⟨hn, rfl⟩
      exact .abandoned (Option.map_eq_some_iff.mpr ⟨_, hc, Prod.ext rfl hbehave⟩)

end Replayer

end Assay
