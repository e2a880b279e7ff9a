import Assay.Proofs.Appending
import Assay.Proofs.Command
import Assay.Proofs.Processes
import Assay.Proofs.Transcript
import Mathlib.Logic.Function.Basic
import Mathlib.Logic.Relation

/-!
# Workers at one script

Several workers note their commands in one script. A worker that has a record to write takes the
lock, writes the record in one piece or in several, and gives the lock back; between any two of
these steps the others may make theirs. A request that comes to no record ends in a fault: an exit
code with too many digits before the lock is taken, a text without bytes behind it. `Desk` is the
state of it all and `Desk.Step` is one step.

`transcript_faithful` says what holds whatever the steps are: no call fails but those that come to
no record, every worker's calls are made in the worker's order, and the script consists of the
records in the order in which the lock was taken, but for what the holder of the lock has still to
write. It is the script that the same calls leave when they are made one after the other, and it is
read back as their commands. For this the file has to stay where it was begun, and the texts need
bytes: `transcript_loses_calls`.
-/

namespace Assay

namespace Disk

variable {d : Disk} {p : Path} {loc : Location}

/-- The path leads to the location, and there is a file, whatever its content is. -/
def FileAt (d : Disk) (p : Path) (loc : Location) : Prop :=
  ∀ bytes, (d.insert loc (.file bytes)).find .content p.text = .ok (.entry loc (.file bytes)) ∧
    (d.insert loc (.file bytes)).find .target p.text = .ok (.entry loc (.file bytes))

theorem fileAt_of_find {bytes : Text.Bytes} (hp : p.Proper)
    (hf : (d.insert loc (.file bytes)).find .content p.text = .ok (.entry loc (.file bytes))) :
    d.FileAt p loc := by
  intro new
  have hnew := find_rewritten hp hf new
  rw [insert_insert] at hnew
  exact ⟨hnew, find_target_of_file hp hnew⟩

/-- Writing begins a file there. -/
theorem write_fileAt {d' : Disk} {bytes : Text.Bytes} (hp : p.Proper)
    (hw : d.write p.text bytes = .ok d') :
    ∃ loc, d' = d.insert loc (.file bytes) ∧ d.FileAt p loc := by
  unfold write alter at hw
  split at hw
  case h_1 q content hf =>
    cases hw
    exact ⟨q, rfl, fileAt_of_find hp (find_rewritten hp hf bytes)⟩
  case h_2 => cases hw
  case h_3 parent name hf =>
    cases hw
    have hfound := find_filled (e := .file bytes) hp nofun hf
    exact ⟨parent ++ [name], rfl, fileAt_of_find hp hfound⟩
  case h_4 => cases hw

theorem FileAt.extend (ho : d.FileAt p loc) (bytes more : Text.Bytes) :
    (d.insert loc (.file bytes)).extend p.text more = .ok (d.insert loc (.file (bytes ++ more))) := by
  unfold Disk.extend alter
  rw [(ho bytes).1]
  dsimp only
  rw [insert_insert]

theorem FileAt.read (ho : d.FileAt p loc) (bytes : Text.Bytes) :
    (d.insert loc (.file bytes)).read p.text = .ok bytes :=
  read_ok_iff.mpr ⟨loc, (ho bytes).2⟩

end Disk

namespace Script

open Shell (Record)
open Relation (ReflTransGen)

variable {n : Nat} {path : Path} {loc : Location} {d : Disk} {h : Host} {w w₀ : World}

/-! ## Requests -/

theorem mem_of_mapM {α β : Type} {f : α → Option β} :
    ∀ {l : List α} {l' : List β}, l.mapM f = some l' → ∀ b ∈ l', ∃ a ∈ l, f a = some b
  | [], _, hl, b, hb => by
    cases hl
    cases hb
  | a :: l, _, hl, b, hb => by
    rw [List.mapM_cons] at hl
    obtain ⟨b', hb', hl⟩ := Option.bind_eq_some_iff.mp hl
    obtain ⟨l', hl', hl⟩ := Option.bind_eq_some_iff.mp hl
    cases hl
    rcases List.mem_cons.mp hb with rfl | hb
    · exact ⟨a, List.mem_cons_self, hb'⟩
    · obtain ⟨a', ha', hf⟩ := mem_of_mapM hl' b hb
      exact ⟨a', List.mem_cons_of_mem a ha', hf⟩

namespace Request

variable {r : Request} {record : Record}

/-- There is a command, and the variables have names. -/
structure Writable (r : Request) : Prop where
  command : r.command ≠ []
  names : ∀ v ∈ r.environment, Shell.isName v.1 = true

/-- The record that is kept of a request. -/
def kept? (r : Request) : Option Record :=
  r.record?.toOption

/-- The fault of a request that comes to no record. -/
def fault? (r : Request) : Option Fault :=
  match r.record? with
  | .ok _ => none
  | .error f => some f

/-- What a request adds to the script. -/
def bytes (r : Request) : Text.Bytes :=
  r.kept?.elim [] fun record => Text.encode record.text

theorem kept?_of_ok (hr : r.record? = .ok record) : r.kept? = some record := by
  unfold kept?
  rw [hr]
  rfl

theorem kept?_of_error {f : Fault} (hr : r.record? = .error f) : r.kept? = none := by
  unfold kept?
  rw [hr]
  rfl

theorem fault?_of_ok (hr : r.record? = .ok record) : r.fault? = none := by
  unfold fault?
  rw [hr]

theorem fault?_of_error {f : Fault} (hr : r.record? = .error f) : r.fault? = some f := by
  unfold fault?
  rw [hr]

theorem bytes_of_ok (hr : r.record? = .ok record) : r.bytes = Text.encode record.text := by
  unfold bytes
  rw [kept?_of_ok hr, Option.elim_some]

theorem bytes_of_error {f : Fault} (hr : r.record? = .error f) : r.bytes = [] := by
  unfold bytes
  rw [kept?_of_error hr]
  rfl

/-- Requests without a fault have one record each. -/
theorem map_kept? : ∀ {requests : List Request}, (∀ r ∈ requests, r.fault? = none) →
    requests.map kept? = (requests.filterMap kept?).map some
  | [], _ => rfl
  | r :: requests, hnone => by
    have ih := map_kept? fun r' hr' => hnone r' (List.mem_cons_of_mem r hr')
    cases hr : r.record? with
    | ok record =>
      rw [List.filterMap_cons_some (kept?_of_ok hr), List.map_cons, List.map_cons, kept?_of_ok hr,
        ih]
    | error f =>
      have hfault := hnone r List.mem_cons_self
      rw [fault?_of_error hr] at hfault
      cases hfault

/-- Two things keep a request from being a record. -/
theorem record?_error {f : Fault} (hr : r.record? = .error f) :
    r.isUntellable = true ∧ f = .number .tooLarge ∨
      r.isUntellable = false ∧ f = .unencodable := by
  unfold record? at hr
  split at hr
  case isTrue hu =>
    cases hr
    exact .inl ⟨hu, rfl⟩
  case isFalse hu =>
    split at hr
    · cases hr
    · cases hr
      exact .inr ⟨Bool.eq_false_iff.mpr hu, rfl⟩

theorem writable_of_kept (hw : r.Writable) (hr : r.kept? = some record) :
    record.entry.Writable := by
  unfold kept? record? at hr
  split at hr
  · cases hr
  · split at hr
    case h_1 entry output hentry _ =>
      cases hr
      obtain ⟨command, hcommand, hentry⟩ := Option.bind_eq_some_iff.mp hentry
      obtain ⟨environment, henvironment, hentry⟩ := Option.bind_eq_some_iff.mp hentry
      obtain ⟨directory, -, hentry⟩ := Option.bind_eq_some_iff.mp hentry
      cases hentry
      refine ⟨?_, fun v hv => ?_⟩
      · rintro rfl
        have hnil := hw.command
        cases hc : r.command with
        | nil => exact hnil hc
        | cons word words =>
          rw [hc, List.mapM_cons] at hcommand
          obtain ⟨_, -, hcommand⟩ := Option.bind_eq_some_iff.mp hcommand
          obtain ⟨_, -, hcommand⟩ := Option.bind_eq_some_iff.mp hcommand
          cases hcommand
      · obtain ⟨v', hv', htext⟩ := mem_of_mapM henvironment v hv
        obtain ⟨s, -, rfl⟩ := Option.map_eq_some_iff.mp htext
        exact hw.names v' hv'
    case h_2 => cases hr

/-- **A request of texts that have bytes** is a record, if its exit code can be told. -/
theorem record?_ofRecord (ht : (ofRecord record).isUntellable = false) :
    (ofRecord record).record? = .ok record := by
  obtain ⟨⟨command, environment, directory⟩, output⟩ := record
  have hcommand : (command.map Json.Literal.whole).mapM Json.Literal.text? = some command :=
    mapM_map_eq_some fun _ _ => rfl
  have henvironment : (environment.map fun v => (v.1, Json.Literal.whole v.2)).mapM
      (fun v => v.2.text?.map fun s => (v.1, s)) = some environment :=
    mapM_map_eq_some fun _ _ => rfl
  unfold record?
  rw [ht, if_neg Bool.false_ne_true]
  unfold entry? ofRecord
  dsimp only
  rw [hcommand, henvironment]
  cases directory <;> cases output <;> rfl

end Request

/-! ## Calls one after the other -/

theorem create_fileAt (hp : path.Proper) (hc : (create path).run h w = (.ok (), w₀)) :
    ∃ (d : Disk) (loc : Location), w₀.disk = d.insert loc (.file []) ∧ d.FileAt path loc := by
  obtain ⟨_, w₁, -, hc⟩ := Action.bind_ok_iff.mp hc
  obtain ⟨_, w₂, -, hc⟩ := Action.bind_ok_iff.mp hc
  unfold Action.changeDisk at hc
  rw [Action.bind_of_ok (Action.disk_run h w₂)] at hc
  split at hc
  case h_1 d hw =>
    cases hc
    obtain ⟨loc, rfl, hat⟩ := Disk.write_fileAt hp hw
    exact ⟨w₂.disk, loc, rfl, hat⟩
  case h_2 => cases hc

theorem encode_script_cons (r : Record) (records : List Record) :
    Text.encode (Record.script (r :: records)) =
      Text.encode r.text ++ Text.encode (Record.script records) := by
  unfold Text.encode
  rw [Record.toList_script, Record.toList_script, List.flatMap_cons, List.flatMap_append]

/-- The script of the records that are kept consists of what the requests add to it. -/
theorem encode_script_kept : ∀ requests : List Request,
    Text.encode (Record.script (requests.filterMap Request.kept?)) =
      requests.flatMap Request.bytes
  | [] => rfl
  | r :: requests => by
    rw [List.flatMap_cons, ← encode_script_kept requests]
    cases hr : r.record? with
    | ok record =>
      rw [List.filterMap_cons_some (Request.kept?_of_ok hr), Request.bytes_of_ok hr,
        encode_script_cons]
    | error f =>
      rw [List.filterMap_cons_none (Request.kept?_of_error hr), Request.bytes_of_error hr,
        List.nil_append]

/-- Makes a call, whatever comes of it. -/
def attempted (path : Path) (r : Request) : Action Unit := do
  let _ ← Action.attempt (file path r)
  return ()

/-- **One call** adds what belongs to it, and fails if it comes to no record. -/
theorem file_run (hat : d.FileAt path loc) (hn : Disk.hasNull path.text = false) (r : Request)
    {bytes : Text.Bytes} (hdisk : w.disk = d.insert loc (.file bytes)) :
    (file path r).run h w =
      (r.record?.map fun _ => (), { w with disk := d.insert loc (.file (bytes ++ r.bytes)) }) := by
  have hextend : ∀ more, (Action.changeDisk fun d => d.extend path.text more).run h w =
      (.ok (), { w with disk := d.insert loc (.file (bytes ++ more)) }) := by
    intro more
    have hchange := hat.extend bytes more
    rw [← hdisk] at hchange
    exact Action.changeDisk_run hchange
  unfold file
  cases hr : r.record? with
  | ok record =>
    rw [Request.bytes_of_ok hr]
    show (append path record.entry record.output).run h w = _
    unfold append
    rw [Action.bind_of_ok (Action.refuseNull_run hn)]
    exact hextend _
  | error f =>
    rw [Request.bytes_of_error hr]
    rcases Request.record?_error hr with ⟨-, rfl⟩ | ⟨-, rfl⟩
    · rw [List.append_nil, ← hdisk]
      rfl
    · dsimp only
      rw [Action.bind_of_ok (Action.refuseNull_run hn), Action.bind_of_ok (hextend [])]
      rfl

theorem attempted_run (hat : d.FileAt path loc) (hn : Disk.hasNull path.text = false)
    (r : Request) {bytes : Text.Bytes} (hdisk : w.disk = d.insert loc (.file bytes)) :
    (attempted path r).run h w =
      (.ok (), { w with disk := d.insert loc (.file (bytes ++ r.bytes)) }) := by
  unfold attempted
  rw [Action.bind_of_ok (Action.attempt_run _ h w), file_run hat hn r hdisk]
  rfl

theorem attempts_run (hat : d.FileAt path loc) (hn : Disk.hasNull path.text = false) :
    ∀ (requests : List Request) (bytes : Text.Bytes) (w : World),
      w.disk = d.insert loc (.file bytes) →
      (requests.forM (attempted path)).run h w = (.ok (), { w with
        disk := d.insert loc (.file (bytes ++ requests.flatMap Request.bytes)) })
  | [], bytes, w, hdisk => by
    rw [List.flatMap_nil, List.append_nil, ← hdisk]
    rfl
  | r :: requests, bytes, w, hdisk => by
    show (attempted path r >>= fun _ => requests.forM (attempted path)).run h w = _
    rw [Action.bind_of_ok (attempted_run hat hn r hdisk), attempts_run hat hn requests _ _ rfl,
      List.flatMap_cons, List.append_assoc]

/-! ## Workers -/

/-- Workers at a script. -/
structure Desk (n : Nat) where
  /-- The calls that each worker has still to make. -/
  waiting : Fin n → List Request
  /-- Who has the lock, and what of its record is still to be written. -/
  holder : Option (Fin n × Text.Bytes)
  /-- Who has made which call so far, in the order in which they took the lock. -/
  taken : List (Fin n × Request)
  /-- The faults that calls have ended with. -/
  faults : List Fault
  disk : Disk

namespace Desk

variable {s s' : Desk n} {calls : Fin n → List Request}

def begin (calls : Fin n → List Request) (d : Disk) : Desk n :=
  ⟨calls, none, [], [], d⟩

/-- The calls made so far. -/
def requests (s : Desk n) : List Request :=
  s.taken.map Prod.snd

/-- The records of these calls, of all that come to one. -/
def records (s : Desk n) : List Record :=
  s.requests.filterMap Request.kept?

/-- What the holder of the lock has still to write. -/
def pending (s : Desk n) : Text.Bytes :=
  (s.holder.map Prod.snd).getD []

/-- The calls that a worker has made. -/
def takenBy (s : Desk n) (i : Fin n) : List Request :=
  (s.taken.filter fun t => t.1 = i).map Prod.snd

/-- The worker makes its next call. -/
def advance (s : Desk n) (i : Fin n) (r : Request) (rest : List Request) : Desk n :=
  { s with waiting := Function.update s.waiting i rest, taken := s.taken ++ [(i, r)] }

/-- All calls have been made. -/
structure Finished (s : Desk n) : Prop where
  waiting : ∀ i, s.waiting i = []
  free : s.holder = none

/-- One step of one worker. -/
inductive Step (path : Path) : Desk n → Desk n → Prop where
  /-- The worker takes the lock for its next record. -/
  | take {s : Desk n} {i : Fin n} {r : Request} {rest : List Request} {record : Record}
      (free : s.holder = none) (next : s.waiting i = r :: rest) (kept : r.record? = .ok record) :
      Step path s { s.advance i r rest with holder := some (i, Text.encode record.text) }
  /-- It writes some of what is left. -/
  | write {s : Desk n} {i : Fin n} {piece rest : Text.Bytes} {d : Disk}
      (held : s.holder = some (i, piece ++ rest))
      (written : s.disk.extend path.text piece = .ok d) :
      Step path s { s with holder := some (i, rest), disk := d }
  /-- It cannot write, and the call ends with a fault. -/
  | fail {s : Desk n} {i : Fin n} {piece rest : Text.Bytes} {f : OsFault}
      (held : s.holder = some (i, piece ++ rest))
      (refused : s.disk.extend path.text piece = .error f) :
      Step path s { s with holder := none, faults := s.faults ++ [.disk f] }
  /-- All is written, and it gives the lock back. -/
  | release {s : Desk n} {i : Fin n} (held : s.holder = some (i, [])) :
      Step path s { s with holder := none }
  /-- The text of its next record cannot be put together. The lock is not needed to see that. -/
  | refuse {s : Desk n} {i : Fin n} {r : Request} {rest : List Request} {f : Fault}
      (next : s.waiting i = r :: rest) (lost : r.record? = .error f) (early : f ≠ .unencodable) :
      Step path s { s.advance i r rest with faults := s.faults ++ [f] }
  /-- It takes the lock and opens the file, the text of its next record turns out to have no bytes,
  and it gives the lock back. -/
  | lose {s : Desk n} {i : Fin n} {r : Request} {rest : List Request} {d : Disk}
      (free : s.holder = none) (next : s.waiting i = r :: rest)
      (lost : r.record? = .error .unencodable) (opened : s.disk.extend path.text [] = .ok d) :
      Step path s { s.advance i r rest with faults := s.faults ++ [.unencodable], disk := d }
  /-- It takes the lock for such a record, and cannot open the file. -/
  | bar {s : Desk n} {i : Fin n} {r : Request} {rest : List Request} {f : OsFault}
      (free : s.holder = none) (next : s.waiting i = r :: rest)
      (lost : r.record? = .error .unencodable) (refused : s.disk.extend path.text [] = .error f) :
      Step path s { s.advance i r rest with faults := s.faults ++ [.disk f] }

/-- Any number of steps, in any order. -/
def Reaches (path : Path) : Desk n → Desk n → Prop :=
  ReflTransGen (Step path)

/-! ## What every step keeps up -/

/-- The records of the calls are in the file, but for what is pending; the calls that came to no
record have failed, and no others, and none has been skipped. -/
structure Steady (d : Disk) (loc : Location) (calls : Fin n → List Request) (s : Desk n) :
    Prop where
  disk : ∃ bytes, s.disk = d.insert loc (.file bytes) ∧
    bytes ++ s.pending = s.requests.flatMap Request.bytes
  faults : s.faults = s.requests.filterMap Request.fault?
  order : ∀ i, s.takenBy i ++ s.waiting i = calls i

theorem steady_begin (d : Disk) (loc : Location) (calls : Fin n → List Request) :
    (begin calls (d.insert loc (.file []))).Steady d loc calls where
  disk := ⟨[], rfl, rfl⟩
  faults := rfl
  order _ := rfl

theorem pending_of_free (hfree : s.holder = none) : s.pending = [] := by
  unfold pending
  rw [hfree]
  rfl

theorem pending_of_held {i : Fin n} {rest : Text.Bytes} (hheld : s.holder = some (i, rest)) :
    s.pending = rest := by
  unfold pending
  rw [hheld]
  rfl

theorem requests_advance (s : Desk n) (i : Fin n) (r : Request) (rest : List Request) :
    (s.advance i r rest).requests = s.requests ++ [r] :=
  List.map_append

theorem takenBy_advance (s : Desk n) (i j : Fin n) (r : Request) (rest : List Request) :
    (s.advance i r rest).takenBy j = s.takenBy j ++ if i = j then [r] else [] := by
  show ((s.taken ++ [(i, r)]).filter fun t => t.1 = j).map Prod.snd = _
  rw [List.filter_append, List.map_append]
  refine congrArg (s.takenBy j ++ ·) ?_
  by_cases hij : i = j
  · rw [if_pos hij, List.filter_singleton, decide_eq_true hij]
    rfl
  · rw [if_neg hij, List.filter_singleton, decide_eq_false hij]
    rfl

/-- A call is made by the worker whose turn it is, and by nobody else. -/
theorem Steady.order_advance (hs : s.Steady d loc calls) {i : Fin n} {r : Request}
    {rest : List Request} (next : s.waiting i = r :: rest) (j : Fin n) :
    (s.advance i r rest).takenBy j ++ (s.advance i r rest).waiting j = calls j := by
  show _ ++ Function.update s.waiting i rest j = calls j
  rw [takenBy_advance, ← hs.order j]
  by_cases hij : i = j
  · subst hij
    rw [if_pos rfl, Function.update_self, List.append_assoc, next]
    rfl
  · rw [if_neg hij, Function.update_of_ne (Ne.symm hij), List.append_nil]

/-- A call that comes to no record leaves the file as it is, and its fault behind. -/
theorem Steady.lost (hs : s.Steady d loc calls) {i : Fin n} {r : Request} {rest : List Request}
    {f : Fault} (next : s.waiting i = r :: rest) (hr : r.record? = .error f) :
    Steady d loc calls { s.advance i r rest with faults := s.faults ++ [f] } where
  disk := by
    obtain ⟨bytes, hdisk, hbytes⟩ := hs.disk
    refine ⟨bytes, hdisk, ?_⟩
    show bytes ++ s.pending = (s.advance i r rest).requests.flatMap Request.bytes
    rw [requests_advance, List.flatMap_append, List.flatMap_singleton, Request.bytes_of_error hr,
      List.append_nil, hbytes]
  faults := by
    show s.faults ++ [f] = (s.advance i r rest).requests.filterMap Request.fault?
    rw [requests_advance, List.filterMap_append, ← hs.faults,
      List.filterMap_cons_some (Request.fault?_of_error hr), List.filterMap_nil]
  order := hs.order_advance next

theorem Steady.step (hat : d.FileAt path loc) (hs : s.Steady d loc calls)
    (hstep : Step path s s') : s'.Steady d loc calls := by
  obtain ⟨bytes, hdisk, hbytes⟩ := id hs.disk
  cases hstep with
  | @take i r rest record free next kept =>
    refine ⟨⟨bytes, hdisk, ?_⟩, ?_, hs.order_advance next⟩
    · rw [pending_of_free free, List.append_nil] at hbytes
      rw [pending_of_held rfl]
      show _ = (s.advance i r rest).requests.flatMap Request.bytes
      rw [requests_advance, List.flatMap_append, List.flatMap_singleton, Request.bytes_of_ok kept,
        hbytes]
    · show s.faults = (s.advance i r rest).requests.filterMap Request.fault?
      rw [requests_advance, List.filterMap_append, ← hs.faults,
        List.filterMap_cons_none (Request.fault?_of_ok kept), List.filterMap_nil, List.append_nil]
  | @write i piece rest d' held written =>
    rw [hdisk, hat.extend] at written
    cases written
    refine ⟨⟨bytes ++ piece, rfl, ?_⟩, hs.faults, hs.order⟩
    rw [pending_of_held held, ← List.append_assoc] at hbytes
    exact hbytes
  | fail held refused =>
    -- the file is there, so it can be written to
    rw [hdisk, hat.extend] at refused
    cases refused
  | @release i held =>
    refine ⟨⟨bytes, hdisk, ?_⟩, hs.faults, hs.order⟩
    rw [pending_of_held held] at hbytes
    exact hbytes
  | refuse next lost => exact hs.lost next lost
  | lose free next lost opened =>
    rw [hdisk, hat.extend, List.append_nil, ← hdisk] at opened
    cases opened
    exact hs.lost next lost
  | bar free next lost refused =>
    rw [hdisk, hat.extend] at refused
    cases refused

theorem Steady.reaches (hat : d.FileAt path loc) (hs : s.Steady d loc calls)
    (hr : Reaches path s s') : s'.Steady d loc calls := by
  induction hr with
  | refl => exact hs
  | tail _ hstep ih => exact ih.step hat hstep

/-! ## Every call can be made -/

/-- Whoever has the lock can finish its record and give the lock back. -/
theorem exists_free (hat : d.FileAt path loc) (hs : s.Steady d loc calls) :
    ∃ s', Reaches path s s' ∧ s'.holder = none ∧ s'.waiting = s.waiting := by
  obtain ⟨bytes, hdisk, -⟩ := hs.disk
  cases hholder : s.holder with
  | none => exact ⟨s, .refl, hholder, rfl⟩
  | some held =>
    obtain ⟨i, rest⟩ := held
    have hwritten := hat.extend bytes rest
    rw [← hdisk] at hwritten
    have hheld : s.holder = some (i, rest ++ []) := by rw [hholder, List.append_nil]
    exact ⟨_, .tail (.single (.write hheld hwritten)) (.release rfl), rfl, rfl⟩

/-- One call, from taking the lock to giving it back. -/
theorem reaches_call (hat : d.FileAt path loc) {bytes : Text.Bytes} {i : Fin n} {r : Request}
    {rest : List Request} (hdisk : s.disk = d.insert loc (.file bytes)) (hfree : s.holder = none)
    (hnext : s.waiting i = r :: rest) :
    Reaches path s { s.advance i r rest with
      holder := none
      faults := s.faults ++ r.fault?.toList
      disk := d.insert loc (.file (bytes ++ r.bytes)) } := by
  cases hr : r.record? with
  | ok record =>
    rw [Request.fault?_of_ok hr, Request.bytes_of_ok hr, Option.toList_none, List.append_nil]
    have hwritten := hat.extend bytes (Text.encode record.text)
    rw [← hdisk] at hwritten
    have hheld : some (i, Text.encode record.text) = some (i, Text.encode record.text ++ []) := by
      rw [List.append_nil]
    exact .tail (.tail (.single (.take hfree hnext hr)) (.write hheld hwritten)) (.release rfl)
  | error f =>
    rw [Request.fault?_of_error hr, Request.bytes_of_error hr, List.append_nil, ← hdisk, ← hfree]
    by_cases hf : f = .unencodable
    · subst hf
      have hopened := hat.extend bytes []
      rw [List.append_nil, ← hdisk] at hopened
      exact .single (.lose hfree hnext hr hopened)
    · exact .single (.refuse hnext hr hf)

/-- A worker can make all its calls, one after the other. -/
theorem exists_drained (hat : d.FileAt path loc) (i : Fin n) :
    ∀ (rest : List Request) (s : Desk n), s.Steady d loc calls → s.holder = none →
      s.waiting i = rest → ∃ s', Reaches path s s' ∧ s'.holder = none ∧ s'.waiting i = [] ∧
        ∀ j, s.waiting j = [] → s'.waiting j = []
  | [], s, _, hfree, hnext => ⟨s, .refl, hfree, hnext, fun _ hj => hj⟩
  | r :: rest, s, hs, hfree, hnext => by
    obtain ⟨bytes, hdisk, -⟩ := hs.disk
    have hcall := reaches_call hat hdisk hfree hnext
    have hrest : (s.advance i r rest).waiting i = rest := by
      show Function.update s.waiting i rest i = rest
      exact Function.update_self ..
    obtain ⟨s', hr, hfree', hdone, hkeep⟩ :=
      exists_drained hat i rest _ (hs.reaches hat hcall) rfl hrest
    refine ⟨s', hcall.trans hr, hfree', hdone, fun j hj => hkeep j ?_⟩
    have hij : j ≠ i := by
      rintro rfl
      rw [hnext] at hj
      cases hj
    exact (Function.update_of_ne hij rest s.waiting).trans hj

/-- **No call is kept waiting for ever**: from wherever the workers are, all calls can be made. -/
theorem exists_finished (hat : d.FileAt path loc) (hs : s.Steady d loc calls) :
    ∃ s', Reaches path s s' ∧ s'.Finished := by
  have hworkers : ∀ (is : List (Fin n)) (s : Desk n), s.Steady d loc calls → s.holder = none →
      ∃ s', Reaches path s s' ∧ s'.holder = none ∧ (∀ i ∈ is, s'.waiting i = []) ∧
        ∀ j, s.waiting j = [] → s'.waiting j = [] := by
    intro is
    induction is with
    | nil => exact fun s _ hfree => ⟨s, .refl, hfree, fun i hi => absurd hi List.not_mem_nil,
        fun _ hj => hj⟩
    | cons i is ih =>
      intro s hs hfree
      obtain ⟨s₁, hr₁, hfree₁, hdone₁, hkeep₁⟩ := exists_drained hat i _ s hs hfree rfl
      obtain ⟨s₂, hr₂, hfree₂, hdone₂, hkeep₂⟩ := ih s₁ (hs.reaches hat hr₁) hfree₁
      refine ⟨s₂, hr₁.trans hr₂, hfree₂, fun j hj => ?_, fun j hj => hkeep₂ j (hkeep₁ j hj)⟩
      rcases List.mem_cons.mp hj with rfl | hj
      · exact hkeep₂ j hdone₁
      · exact hdone₂ j hj
  obtain ⟨s₁, hr₁, hfree₁, -⟩ := exists_free hat hs
  obtain ⟨s₂, hr₂, hfree₂, hdone, -⟩ :=
    hworkers (List.finRange n) s₁ (hs.reaches hat hr₁) hfree₁
  exact ⟨s₂, hr₁.trans hr₂, fun i => hdone i (List.mem_finRange i), hfree₂⟩

/-! ## What the script shows -/

/-- What can be said of the script and of the calls at any moment. -/
structure Faithful (path : Path) (h : Host) (w₀ : World) (calls : Fin n → List Request)
    (s : Desk n) : Prop where
  /-- Every worker makes each of its calls once, in its own order. -/
  order : ∀ i, s.takenBy i ++ s.waiting i = calls i
  /-- The calls that come to no record have failed, and no others. -/
  faults : s.faults = s.requests.filterMap Request.fault?
  /-- If the texts of all calls have bytes and the exit codes can be told, there is one record for
  each call, and no call has failed. -/
  complete : (∀ i, ∀ r ∈ calls i, r.fault? = none) →
    s.requests.map Request.kept? = s.records.map some ∧ s.faults = []
  /-- The file consists of the records in the order of the lock, but for what its holder has still
  to write. -/
  file : ∃ bytes, s.disk.read path.text = .ok bytes ∧
    bytes ++ s.pending = Text.encode (Record.script s.records)
  /-- When nobody has the lock, the disk is as if the calls had been made one after the other. -/
  sequential : s.holder = none →
    (s.requests.forM (attempted path)).run h w₀ = (.ok (), { w₀ with disk := s.disk })
  /-- The commands are read back, with their directories and variables, and nothing else is. -/
  readBack : Shell.read? (Record.script s.records) = some (s.records.map Record.entry)
  /-- Cut at line feeds, the script consists of the lines of the commands and of one line for each
  line that was printed and for each exit code. -/
  lines : Text.newlineLines (Record.script s.records).toList = s.records.flatMap fun r =>
    Text.newlineLines (Shell.record r.entry none).toList ++ r.comments.map String.toList
  /-- These latter lines are comments. -/
  comments : ∀ r ∈ s.records, ∀ l ∈ r.comments, Record.IsComment l
  /-- All calls can come to their end. -/
  finishes : ∃ s', Reaches path s s' ∧ s'.Finished

theorem mem_calls (hs : s.Steady d loc calls) {r : Request} (hr : r ∈ s.requests) :
    ∃ i, r ∈ calls i := by
  obtain ⟨⟨i, r'⟩, hmem, rfl⟩ := List.mem_map.mp hr
  refine ⟨i, hs.order i ▸ List.mem_append_left _ (List.mem_map.mpr ⟨(i, r'), ?_, rfl⟩)⟩
  exact List.mem_filter.mpr ⟨hmem, decide_eq_true rfl⟩

theorem complete_of_steady (hs : s.Steady d loc calls)
    (hall : ∀ i, ∀ r ∈ calls i, r.fault? = none) :
    s.requests.map Request.kept? = s.records.map some ∧ s.faults = [] := by
  have hnone : ∀ r ∈ s.requests, r.fault? = none := by
    intro r hr
    obtain ⟨i, hi⟩ := mem_calls hs hr
    exact hall i r hi
  exact ⟨Request.map_kept? hnone, hs.faults.trans (List.filterMap_eq_nil_iff.mpr hnone)⟩

/-- **The script is faithful.** Workers that note their commands in a script which has been begun
leave, in whatever order they make their steps, a script of the records in the order of the lock;
it is read back as their commands, and nothing that was printed is read as one. A call with a text
that has no bytes, or with an exit code that cannot be told, fails and leaves no trace in it. -/
theorem transcript_faithful {n : Nat} (place : String) {h : Host} {w w₀ : World}
    (hcreate : (create (Path.parse place)).run h w = (.ok (), w₀)) {calls : Fin n → List Request}
    (hcalls : ∀ i, ∀ r ∈ calls i, r.Writable) {s : Desk n}
    (hs : Reaches (Path.parse place) (begin calls w₀.disk) s) :
    s.Faithful (Path.parse place) h w₀ calls := by
  obtain ⟨d, loc, hdisk, hat⟩ := create_fileAt (Path.proper_parse place) hcreate
  have hn := hasNull_of_create hcreate
  rw [hdisk] at hs
  have hsteady := (steady_begin d loc calls).reaches hat hs
  obtain ⟨bytes, hdisk', hbytes⟩ := hsteady.disk
  have hread : s.disk.read (Path.parse place).text = .ok bytes := by
    rw [hdisk']
    exact hat.read bytes
  have hscript : Text.encode (Record.script s.records) = s.requests.flatMap Request.bytes :=
    encode_script_kept s.requests
  refine ⟨hsteady.order, hsteady.faults, complete_of_steady hsteady,
    ⟨bytes, hread, hbytes.trans hscript.symm⟩, fun hfree => ?_,
    Record.read?_script fun r hr => ?_, Record.newlineLines_script _,
    fun r _ l hl => Record.isComment_of_mem hl, exists_finished hat hsteady⟩
  · rw [pending_of_free hfree, List.append_nil] at hbytes
    rw [attempts_run hat hn s.requests [] w₀ hdisk, List.nil_append, ← hbytes, ← hdisk']
  · obtain ⟨request, hrequest, hkept⟩ := List.mem_filterMap.mp hr
    obtain ⟨i, hi⟩ := mem_calls hsteady hrequest
    exact Request.writable_of_kept (hcalls i request hi) hkept

/-! ### Two workers -/

/-- A command in a directory and with a variable, which prints what could be taken for the end of
its group, and for a command. -/
def spitefulRecord : Record where
  entry := ⟨["grep", "# not 'a'\n)"], [("PATTERN", "a\nb")], some "my (dir)"⟩
  output := some ⟨-9, "x\r)\u2028rm y\n", "'", false⟩

def plainRecord : Record :=
  ⟨⟨["ls", ""], [], none⟩, none⟩

/-- A command with a word that has no bytes. -/
def raggedRequest : Request :=
  ⟨[.whole "klee", .ragged [.half 0xDCFF]], [], none, none⟩

def sampleCalls (i : Fin 2) : List Request :=
  if i = 0 then [.ofRecord spitefulRecord] else [.ofRecord plainRecord, raggedRequest]

theorem record?_spitefulRecord :
    (Request.ofRecord spitefulRecord).record? = .ok spitefulRecord := by
  have hcode : Number.IsTellable (-9) := Number.isTellable_of_small (by decide)
  refine Request.record?_ofRecord ?_
  unfold Number.IsTellable at hcode
  unfold Request.isUntellable
  generalize Number.maxDigits = k at hcode ⊢
  exact decide_eq_false (Nat.not_le_of_gt hcode)

theorem record?_plainRecord : (Request.ofRecord plainRecord).record? = .ok plainRecord :=
  Request.record?_ofRecord rfl

theorem record?_raggedRequest : raggedRequest.record? = .error .unencodable := rfl

theorem writable_raggedRequest : raggedRequest.Writable :=
  ⟨List.cons_ne_nil _ _, nofun⟩

theorem writable_sampleCalls : ∀ i, ∀ r ∈ sampleCalls i, r.Writable := by
  intro i r hr
  unfold sampleCalls at hr
  split at hr
  · rw [List.mem_singleton.mp hr]
    refine ⟨List.cons_ne_nil _ _, fun v hv => ?_⟩
    rw [List.mem_singleton.mp hv]
    decide
  · rcases List.mem_pair.mp hr with rfl | rfl
    · exact ⟨List.cons_ne_nil _ _, nofun⟩
    · exact writable_raggedRequest

theorem parse_sampleScript : Path.parse "run.sh" = Disk.hereDir.child "run.sh" := by decide

theorem fits_sampleScript : Disk.Fits Disk.hereDir "run.sh" := by decide

/-- A script is begun in an empty working directory. -/
theorem create_sample (h : Host) :
    ∃ w₀, (create (Path.parse "run.sh")).run h (World.begin Scheduler.emptyDisk) = (.ok (), w₀) := by
  have hfind := Disk.find_nothing (d := Scheduler.emptyDisk) Disk.proper_hereDir fits_sampleScript
    (by decide) (Disk.directoryAt?_hereDir _) (by decide) .content
  have hmade := OutputDir.makeDirectories_run (h := h) (w := World.begin Scheduler.emptyDisk)
    (show Disk.hasNull Disk.hereDir.text = false by decide)
    (Disk.ensureDirectory_of_directoryAt Disk.proper_hereDir (by decide)
      (Disk.directoryAt?_hereDir _))
  have hwrite : Scheduler.emptyDisk.write (Path.parse "run.sh").text [] =
      .ok (Scheduler.emptyDisk.insert ["run.sh"] (.file [])) := by
    unfold Disk.write Disk.alter
    rw [parse_sampleScript, hfind]
    rfl
  have hparent : (Path.parse "run.sh").parent = Disk.hereDir := by decide
  unfold create
  rw [hparent, Action.bind_of_ok hmade, Action.bind_of_ok (Action.refuseNull_run (by decide)),
    Action.changeDisk_run hwrite]
  exact ⟨_, rfl⟩

/-- The second worker takes the lock before the first, and again for what cannot be written down. -/
theorem transcript_faithful_two_workers :
    ∃ w₀ s, (create (Path.parse "run.sh")).run (Checker.saying [])
        (World.begin Scheduler.emptyDisk) = (.ok (), w₀) ∧
      (∀ i, ∀ r ∈ sampleCalls i, r.Writable) ∧
      Reaches (Path.parse "run.sh") (begin sampleCalls w₀.disk) s ∧ s.Finished ∧
      s.records = [plainRecord, spitefulRecord] ∧ s.faults = [.unencodable] ∧
      s.Faithful (Path.parse "run.sh") (Checker.saying []) w₀ sampleCalls := by
  obtain ⟨w₀, hcreate⟩ := create_sample (Checker.saying [])
  obtain ⟨d, loc, hdisk, hat⟩ := create_fileAt (Path.proper_parse "run.sh") hcreate
  have hfirst := reaches_call (s := begin sampleCalls w₀.disk) (i := 1)
    (r := .ofRecord plainRecord) hat hdisk rfl rfl
  have hsecond := hfirst.trans
    (reaches_call (i := 0) (r := .ofRecord spitefulRecord) hat rfl rfl rfl)
  have hreaches := hsecond.trans (reaches_call (i := 1) (r := raggedRequest) hat rfl rfl rfl)
  have hfaithful := transcript_faithful "run.sh" hcreate writable_sampleCalls hreaches
  refine ⟨w₀, _, hcreate, writable_sampleCalls, hreaches, ⟨fun i => ?_, rfl⟩, ?_, ?_, hfaithful⟩
  · match i with
    | 0 => rfl
    | 1 => rfl
  · show [Request.ofRecord plainRecord, .ofRecord spitefulRecord, raggedRequest].filterMap
      Request.kept? = _
    rw [List.filterMap_cons_some (Request.kept?_of_ok record?_plainRecord),
      List.filterMap_cons_some (Request.kept?_of_ok record?_spitefulRecord),
      List.filterMap_cons_none (Request.kept?_of_error record?_raggedRequest)]
    rfl
  · show (([] ++ (Request.ofRecord plainRecord).fault?.toList) ++
      (Request.ofRecord spitefulRecord).fault?.toList) ++ raggedRequest.fault?.toList = _
    rw [Request.fault?_of_ok record?_plainRecord, Request.fault?_of_ok record?_spitefulRecord,
      Request.fault?_of_error record?_raggedRequest]
    rfl

/-! ### Calls that leave no record -/

/-- The disk after a process has put a directory where the script was. -/
def occupiedDisk : Disk :=
  Scheduler.emptyDisk.insert ["run.sh"] .directory

theorem find_occupiedDisk (aim : Disk.Aim) :
    occupiedDisk.find aim (Path.parse "run.sh").text = .ok (.entry ["run.sh"] .directory) := by
  rw [parse_sampleScript]
  exact Disk.find_something Disk.proper_hereDir fits_sampleScript (by decide)
    (Disk.directoryAt?_hereDir occupiedDisk) (by decide) (fun _ => Entry.noConfusion) aim

theorem extend_occupiedDisk (content : Text.Bytes) :
    occupiedDisk.extend (Path.parse "run.sh").text content =
      .error (.ofErrno .isDirectory (Path.parse "run.sh").text) := by
  unfold Disk.extend Disk.alter
  rw [find_occupiedDisk]

theorem read_occupiedDisk :
    occupiedDisk.read (Path.parse "run.sh").text =
      .error (.ofErrno .isDirectory (Path.parse "run.sh").text) := by
  unfold Disk.read
  rw [find_occupiedDisk]

/-- **Not every call leaves its record.** Where the script has been replaced by a directory a call
fails, there is nothing to be read, and a command of a run is still done but logged as not written
down. And a call with a word that has no bytes fails, and the script is read as if it had not been
made. -/
theorem transcript_loses_calls :
    ((Request.ofRecord plainRecord).Writable ∧
      (∃ f, (file (Path.parse "run.sh") (.ofRecord plainRecord)).run (Checker.saying [])
        (World.begin occupiedDisk) = (.error (.disk f), World.begin occupiedDisk) ∧
        occupiedDisk.read (Path.parse "run.sh").text = .error f) ∧
      ∀ output, ((note (Path.parse "run.sh") plainRecord.entry output).run (Checker.saying [])
        (World.begin occupiedDisk)).2.disk = occupiedDisk) ∧
    ∃ w₀ w', (create (Path.parse "run.sh")).run (Checker.saying [])
        (World.begin Scheduler.emptyDisk) = (.ok (), w₀) ∧
      raggedRequest.Writable ∧
      (file (Path.parse "run.sh") raggedRequest).run (Checker.saying []) w₀ =
        (.error .unencodable, w') ∧
      w'.disk.read (Path.parse "run.sh").text = .ok [] ∧ Shell.read? "" = some [] := by
  obtain ⟨w₀, hcreate⟩ := create_sample (Checker.saying [])
  obtain ⟨d, loc, hdisk, hat⟩ := create_fileAt (Path.proper_parse "run.sh") hcreate
  have hfile := file_run (h := Checker.saying []) hat (hasNull_of_create hcreate) raggedRequest hdisk
  refine ⟨⟨⟨List.cons_ne_nil _ _, nofun⟩, ⟨_, ?_, read_occupiedDisk⟩, fun output => ?_⟩,
    w₀, _, hcreate, writable_raggedRequest, hfile, hat.read [], by decide⟩
  · unfold file
    rw [record?_plainRecord]
    show (append _ _ _).run _ _ = _
    rw [append_eq (by decide)]
    exact Action.changeDisk_run_error (extend_occupiedDisk _)
  · rw [Script.disk_note (by decide)]
    unfold recorded World.begin
    dsimp only
    rw [extend_occupiedDisk]

end Desk

end Script

end Assay
