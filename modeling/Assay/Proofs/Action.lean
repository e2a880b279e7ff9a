import Assay.Action

/-!
# Reasoning about actions

A small logic for actions, with one rule for each way of putting actions together.

* `Returns x P`: on every host and in every world `x` ends with a value of which `P` holds.
* `Raises x`: it always ends with a fault. `Yields x P`: if it ends with a value, `P` holds of it.
  `Faults x P`: if it ends with a fault, `P` holds of that.
* `Keeps view x`: no run of `x`, faulty runs included, changes what `view` sees of the world.
* `Maintains I x`: no run leads out of the worlds with `I`.
* `Respects h R x`: two runs that start in worlds related by `R` end alike.

`bind_ok_iff` takes a finished sequence apart. Of the two views that most frames are about,
`World.deeds` tells actions which only talk from those that do something, and `World.surface` tells
actions which show something from those that only work.

What a run adds to what can be told of it, its warnings among that, is `World.Grows`.
-/

namespace Assay

/-- All that a run has done, which leaves out what it has said: the disk, the calls, the jobs. -/
def World.deeds (w : World) : Disk × List Call × List Job :=
  (w.disk, w.calls, w.started)

/-- All that a run has shown, besides the log: what it has said, and the jobs it has taken up. -/
def World.surface (w : World) : List String × List String × List Job :=
  (w.output, w.complaints, w.started)

/-- What a part of the program says as a warning. -/
def LogRecord.warning (source : Source) (message : String) : LogRecord :=
  ⟨.warning, source, message⟩

/-- The warnings in the log. -/
def World.warnings (w : World) : List LogRecord :=
  w.log.filter fun r => r.level = .warning

/-- All that can be told of a run afterwards but for the disk and the other records of the log. -/
def World.tally (w : World) : (List String × List String × List Job) × List Call × List LogRecord :=
  (w.surface, w.calls, w.warnings)

/-- What has come on top from one world to the other: these texts, processes and warnings. -/
structure World.Grows (w w' : World) (texts : List String) (processes : List Call)
    (cautions : List LogRecord) : Prop where
  output : w'.output = w.output ++ texts
  calls : w'.calls = w.calls ++ processes
  warnings : w'.warnings = w.warnings ++ cautions
  complaints : w'.complaints = w.complaints
  started : w'.started = w.started

section Deeds

variable {w w' : World}

theorem disk_of_deeds (hd : w'.deeds = w.deeds) : w'.disk = w.disk :=
  congrArg Prod.fst hd

theorem calls_of_deeds (hd : w'.deeds = w.deeds) : w'.calls = w.calls :=
  congrArg (fun d => d.2.1) hd

theorem started_of_deeds (hd : w'.deeds = w.deeds) : w'.started = w.started :=
  congrArg (fun d => d.2.2) hd

end Deeds

namespace World.Grows

variable {w w₁ w' : World} {texts texts' : List String} {processes processes' : List Call}
  {cautions cautions' : List LogRecord}

theorem of_tally (ht : w'.tally = w.tally) : Grows w w' [] [] [] where
  output := (congrArg (fun t => t.1.1) ht).trans (List.append_nil _).symm
  calls := (congrArg (fun t => t.2.1) ht).trans (List.append_nil _).symm
  warnings := (congrArg (fun t => t.2.2) ht).trans (List.append_nil _).symm
  complaints := congrArg (fun t => t.1.2.1) ht
  started := congrArg (fun t => t.1.2.2) ht

theorem trans (hx : Grows w w₁ texts processes cautions)
    (hy : Grows w₁ w' texts' processes' cautions') :
    Grows w w' (texts ++ texts') (processes ++ processes') (cautions ++ cautions') where
  output := by rw [hy.output, hx.output, List.append_assoc]
  calls := by rw [hy.calls, hx.calls, List.append_assoc]
  warnings := by rw [hy.warnings, hx.warnings, List.append_assoc]
  complaints := hy.complaints.trans hx.complaints
  started := hy.started.trans hx.started

end World.Grows

section Except

variable {ε ε' α β : Type}

theorem except_bind_ok_iff {x : Except ε α} {f : α → Except ε β} {b : β} :
    x >>= f = .ok b ↔ ∃ a, x = .ok a ∧ f a = .ok b := by
  cases x with
  | error e =>
    constructor
    · intro hb
      cases hb
    · rintro ⟨a, ha, -⟩
      cases ha
  | ok a =>
    constructor
    · intro hb
      exact ⟨a, rfl, hb⟩
    · rintro ⟨a', ha, hf⟩
      cases ha
      exact hf

theorem mapError_ok_iff {x : Except ε α} {f : ε → ε'} {a : α} :
    x.mapError f = .ok a ↔ x = .ok a := by
  cases x with
  | error e =>
    constructor
    · intro ha
      cases ha
    · intro ha
      cases ha
  | ok a' =>
    show Except.ok a' = Except.ok a ↔ _
    rw [Except.ok.injEq, Except.ok.injEq]

end Except

namespace Action

variable {α β γ δ : Type} {h : Host} {w w₁ w' : World}

/-! ## How a sequence ends -/

theorem bind_of_ok {x : Action α} {a : α} (hx : x.run h w = (.ok a, w₁)) (f : α → Action β) :
    (x >>= f).run h w = (f a).run h w₁ := by
  rw [bind_run, hx]

theorem bind_of_error {x : Action α} {e : Fault} (hx : x.run h w = (.error e, w₁))
    (f : α → Action β) : (x >>= f).run h w = (.error e, w₁) := by
  rw [bind_run, hx]

/-- **A finished sequence**: both of its parts have finished. -/
theorem bind_ok_iff {x : Action α} {f : α → Action β} {b : β} :
    (x >>= f).run h w = (.ok b, w') ↔
      ∃ a w₁, x.run h w = (.ok a, w₁) ∧ (f a).run h w₁ = (.ok b, w') := by
  constructor
  · intro hb
    rcases hx : x.run h w with ⟨e | a, w₁⟩
    · rw [bind_of_error hx] at hb
      cases hb
    · rw [bind_of_ok hx] at hb
      exact ⟨a, w₁, rfl, hb⟩
  · rintro ⟨a, w₁, hx, hf⟩
    rw [bind_of_ok hx, hf]

theorem disk_run (h : Host) (w : World) : disk.run h w = (.ok w.disk, w) := rfl

theorem start_run (job : Job) (h : Host) (w : World) :
    (start job).run h w = (.ok (), { w with started := w.started ++ [job] }) := rfl

theorem ofExcept_ok_iff {r : Except Fault α} {a : α} :
    (ofExcept r).run h w = (.ok a, w') ↔ r = .ok a ∧ w = w' := by
  rw [ofExcept_run, Prod.mk.injEq]

theorem pure_ok_iff {a b : α} :
    (pure a : Action α).run h w = (.ok b, w') ↔ a = b ∧ w = w' := by
  rw [pure_run, Prod.mk.injEq, Except.ok.injEq]

/-! ## Values -/

/-- On every host and in every world the action ends with a value of which `P` holds. -/
def Returns (x : Action α) (P : α → Prop) : Prop :=
  ∀ h w, ∃ a, (x.run h w).1 = .ok a ∧ P a

namespace Returns

variable {x : Action α} {f : α → Action β} {P : α → Prop} {Q : β → Prop}

theorem run (hx : Returns x P) (h : Host) (w : World) :
    ∃ a w', x.run h w = (.ok a, w') ∧ P a := by
  obtain ⟨a, ha, hP⟩ := hx h w
  exact ⟨a, (x.run h w).2, Prod.ext ha rfl, hP⟩

/-- What is returned is known. -/
theorem value {a : α} (hx : Returns x (· = a)) (h : Host) (w : World) :
    (x.run h w).1 = .ok a := by
  obtain ⟨_, ha, rfl⟩ := hx h w
  exact ha

theorem pure {a : α} (ha : P a) : Returns (Pure.pure a : Action α) P :=
  fun _ _ => ⟨a, rfl, ha⟩

theorem bind (hx : Returns x P) (hf : ∀ a, P a → Returns (f a) Q) : Returns (x >>= f) Q := by
  intro h w
  obtain ⟨a, w₁, hr, hP⟩ := hx.run h w
  rw [bind_of_ok hr]
  exact hf a hP h w₁

/-- Whatever the first part returns, the second goes on. -/
theorem seq (hx : Returns x P) (hf : ∀ a, Returns (f a) Q) : Returns (x >>= f) Q :=
  hx.bind fun a _ => hf a

theorem ofExcept {a : α} {r : Except Fault α} (hr : r = .ok a) (ha : P a) :
    Returns (Action.ofExcept r) P :=
  fun _ _ => ⟨a, by rw [ofExcept_run, hr], ha⟩

theorem modify (g : World → World) : Returns (Action.modify g) fun _ => True :=
  fun _ _ => ⟨(), rfl, trivial⟩

theorem disk : Returns Action.disk fun _ => True :=
  fun _ w => ⟨w.disk, rfl, trivial⟩

theorem forM {g : α → Action Unit} :
    ∀ (l : List α), (∀ a ∈ l, Returns (g a) fun _ => True) → Returns (l.forM g) fun _ => True
  | [], _ => Returns.pure trivial
  | a :: l, hl => by
    show Returns (g a >>= fun _ => l.forM g) _
    exact (hl a List.mem_cons_self).seq fun _ =>
      forM l fun b hb => hl b (List.mem_cons_of_mem a hb)

/-- An action on each item of a list returns the list of what it returns on them. -/
theorem mapM {g : α → Action β} {v : α → β} :
    ∀ (l : List α), (∀ a ∈ l, Returns (g a) (· = v a)) → Returns (l.mapM g) (· = l.map v)
  | [], _ => Returns.pure rfl
  | a :: l, hl => by
    rw [List.mapM_cons]
    refine (hl a List.mem_cons_self).bind ?_
    rintro _ rfl
    refine (mapM l fun b hb => hl b (List.mem_cons_of_mem a hb)).bind ?_
    rintro _ rfl
    exact Returns.pure rfl

end Returns

/-- On every host and in every world the action ends with a fault. -/
def Raises (x : Action α) : Prop :=
  ∀ h w, ∃ e, (x.run h w).1 = .error e

namespace Raises

variable {x : Action α} {f : α → Action β} {P : α → Prop}

theorem run (hx : Raises x) (h : Host) (w : World) : ∃ e w', x.run h w = (.error e, w') := by
  obtain ⟨e, he⟩ := hx h w
  exact ⟨e, (x.run h w).2, Prod.ext he rfl⟩

theorem fail (e : Fault) : Raises (Action.fail e : Action α) :=
  fun _ _ => ⟨e, rfl⟩

theorem ofExcept {e : Fault} {r : Except Fault α} (hr : r = .error e) :
    Raises (Action.ofExcept r) :=
  fun _ _ => ⟨e, hr⟩

theorem bind (hx : Raises x) (f : α → Action β) : Raises (x >>= f) := by
  intro h w
  obtain ⟨e, w₁, hr⟩ := hx.run h w
  rw [bind_of_error hr]
  exact ⟨e, rfl⟩

/-- A fault after a part that returns. -/
theorem after (hx : Returns x P) (hf : ∀ a, P a → Raises (f a)) : Raises (x >>= f) := by
  intro h w
  obtain ⟨a, w₁, hr, hP⟩ := hx.run h w
  rw [bind_of_ok hr]
  exact hf a hP h w₁

/-- If nothing can follow but a fault, it does not matter how the first part ends. -/
theorem of_next (hf : ∀ a, Raises (f a)) : Raises (x >>= f) := by
  intro h w
  rcases hr : x.run h w with ⟨e | a, w₁⟩
  · rw [bind_of_error hr]
    exact ⟨e, rfl⟩
  · rw [bind_of_ok hr]
    exact hf a h w₁

/-- An action on each item of a list ends with a fault if it does so on one of them, and returns on
the others. -/
theorem mapM {g : α → Action β} {C : α → Prop} (hbad : ∀ a, C a → Raises (g a))
    (hgood : ∀ a, ¬ C a → Returns (g a) fun _ => True) :
    ∀ (l : List α), (∃ a ∈ l, C a) → Raises (l.mapM g)
  | [], h => by
    obtain ⟨a, ha, -⟩ := h
    cases ha
  | a :: l, h => by
    rw [List.mapM_cons]
    by_cases ha : C a
    · exact (hbad a ha).bind _
    · have hrest : ∃ b ∈ l, C b := by
        obtain ⟨b, hb, hC⟩ := h
        rcases List.mem_cons.mp hb with rfl | hb
        · exact absurd hC ha
        · exact ⟨b, hb, hC⟩
      exact after (hgood a ha) fun _ _ => (mapM hbad hgood l hrest).bind _

end Raises

/-- Whatever value a run of the action ends with, `P` holds of it. -/
def Yields (x : Action α) (P : α → Prop) : Prop :=
  ∀ h w a w', x.run h w = (.ok a, w') → P a

namespace Yields

variable {x : Action α} {f : α → Action β} {P : α → Prop} {Q : β → Prop}

theorem pure {a : α} (ha : P a) : Yields (Pure.pure a : Action α) P := by
  intro h w b w' hr
  obtain ⟨rfl, -⟩ := pure_ok_iff.mp hr
  exact ha

theorem fail (e : Fault) : Yields (Action.fail e : Action α) P := by
  intro h w a w' hr
  cases hr

theorem bind (hf : ∀ a, Yields (f a) Q) : Yields (x >>= f) Q := by
  intro h w b w' hr
  obtain ⟨a, w₁, -, hb⟩ := bind_ok_iff.mp hr
  exact hf a h w₁ b w' hb

theorem mono {P' : α → Prop} (hx : Yields x P) (hP : ∀ a, P a → P' a) : Yields x P' :=
  fun h w a w' hr => hP a (hx h w a w' hr)

end Yields

theorem returns_print (s : String) : Returns (print s) fun _ => True :=
  Returns.modify _

theorem returns_log (level : Level) (source : Source) (message : String) :
    Returns (log level source message) fun _ => True :=
  Returns.modify _

/-! ## Frames -/

/-- No run of the action changes what `view` sees of the world. -/
def Keeps (view : World → δ) (x : Action α) : Prop :=
  ∀ h w, view (x.run h w).2 = view w

namespace Keeps

variable {view : World → δ} {x : Action α} {f : α → Action β}

theorem of_run (hx : Keeps view x) {r : Except Fault α} (hr : x.run h w = (r, w')) :
    view w' = view w := by
  rw [← hx h w, hr]

/-- What sees less is kept as well. -/
theorem comp (hx : Keeps view x) (g : δ → γ) : Keeps (fun w => g (view w)) x :=
  fun h w => congrArg g (hx h w)

theorem pure (a : α) : Keeps view (Pure.pure a : Action α) :=
  fun _ _ => rfl

theorem fail (e : Fault) : Keeps view (Action.fail e : Action α) :=
  fun _ _ => rfl

theorem ofExcept (r : Except Fault α) : Keeps view (Action.ofExcept r) :=
  fun _ _ => rfl

theorem host : Keeps view Action.host :=
  fun _ _ => rfl

theorem disk : Keeps view Action.disk :=
  fun _ _ => rfl

theorem modify {g : World → World} (hg : ∀ w, view (g w) = view w) :
    Keeps view (Action.modify g) :=
  fun _ w => hg w

theorem bind (hx : Keeps view x) (hf : ∀ a, Keeps view (f a)) : Keeps view (x >>= f) := by
  intro h w
  rcases hr : x.run h w with ⟨e | a, w₁⟩
  · rw [bind_of_error hr]
    exact hx.of_run hr
  · rw [bind_of_ok hr, hf a h w₁]
    exact hx.of_run hr

theorem attempt (hx : Keeps view x) : Keeps view (Action.attempt x) :=
  fun h w => hx h w

theorem ite {c : Prop} [Decidable c] {y : Action α} (hx : Keeps view x) (hy : Keeps view y) :
    Keeps view (if c then x else y) := by
  split
  · exact hx
  · exact hy

theorem forM {g : α → Action Unit} :
    ∀ (l : List α), (∀ a ∈ l, Keeps view (g a)) → Keeps view (l.forM g)
  | [], _ => Keeps.pure ()
  | a :: l, hl => by
    show Keeps view (g a >>= fun _ => l.forM g)
    exact (hl a List.mem_cons_self).bind fun _ =>
      forM l fun b hb => hl b (List.mem_cons_of_mem a hb)

end Keeps

/-! ## Invariants -/

/-- Every run of the action, faulty or not, leads from a world with `I` to a world with `I`. -/
def Maintains (I : World → Prop) (x : Action α) : Prop :=
  ∀ h w, I w → I (x.run h w).2

namespace Maintains

variable {I : World → Prop} {x : Action α} {f : α → Action β}

theorem of_run (hx : Maintains I x) {r : Except Fault α} (hr : x.run h w = (r, w')) (hw : I w) :
    I w' := by
  have hi := hx h w hw
  rw [hr] at hi
  exact hi

/-- It is enough to keep what the invariant is about. -/
theorem of_keeps {view : World → δ} (hI : ∀ w w', view w' = view w → I w → I w')
    (hx : Keeps view x) : Maintains I x :=
  fun h w hw => hI w _ (hx h w) hw

theorem pure (a : α) : Maintains I (Pure.pure a : Action α) :=
  fun _ _ hw => hw

theorem fail (e : Fault) : Maintains I (Action.fail e : Action α) :=
  fun _ _ hw => hw

theorem bind (hx : Maintains I x) (hf : ∀ a, Maintains I (f a)) : Maintains I (x >>= f) := by
  intro h w hw
  rcases hr : x.run h w with ⟨e | a, w₁⟩
  · rw [bind_of_error hr]
    exact hx.of_run hr hw
  · rw [bind_of_ok hr]
    exact hf a h w₁ (hx.of_run hr hw)

theorem attempt (hx : Maintains I x) : Maintains I (Action.attempt x) :=
  fun h w hw => hx h w hw

theorem ite {c : Prop} [Decidable c] {y : Action α} (hx : Maintains I x) (hy : Maintains I y) :
    Maintains I (if c then x else y) := by
  split
  · exact hx
  · exact hy

theorem forM {g : α → Action Unit} :
    ∀ (l : List α), (∀ a ∈ l, Maintains I (g a)) → Maintains I (l.forM g)
  | [], _ => Maintains.pure ()
  | a :: l, hl => by
    show Maintains I (g a >>= fun _ => l.forM g)
    exact (hl a List.mem_cons_self).bind fun _ =>
      forM l fun b hb => hl b (List.mem_cons_of_mem a hb)

theorem mapM {g : α → Action β} :
    ∀ (l : List α), (∀ a ∈ l, Maintains I (g a)) → Maintains I (l.mapM g)
  | [], _ => Maintains.pure []
  | a :: l, hl => by
    rw [List.mapM_cons]
    exact (hl a List.mem_cons_self).bind fun _ =>
      (mapM l fun b hb => hl b (List.mem_cons_of_mem a hb)).bind fun _ => Maintains.pure _

end Maintains

/-! ## Talk -/

/-- The log is not among what the view sees. -/
def LogFree (view : World → δ) : Prop :=
  ∀ w l, view { w with log := l } = view w

theorem logFree_deeds : LogFree World.deeds :=
  fun _ _ => rfl

theorem logFree_surface : LogFree World.surface :=
  fun _ _ => rfl

theorem keeps_log {view : World → δ} (hv : LogFree view) (level : Level) (source : Source)
    (message : String) : Keeps view (log level source message) :=
  Keeps.modify fun w => hv w _

theorem keeps_deeds_log (level : Level) (source : Source) (message : String) :
    Keeps World.deeds (log level source message) :=
  keeps_log logFree_deeds _ _ _

theorem keeps_deeds_print (s : String) : Keeps World.deeds (print s) :=
  Keeps.modify fun _ => rfl

theorem keeps_deeds_printLine (s : String) : Keeps World.deeds (printLine s) :=
  keeps_deeds_print _

/-- What is done, talk leaves alone: in particular no job is taken up. -/
theorem Keeps.started_of_deeds {x : Action α} (hx : Keeps World.deeds x) :
    Keeps World.started x :=
  hx.comp fun d => d.2.2

theorem Keeps.started_of_surface {x : Action α} (hx : Keeps World.surface x) :
    Keeps World.started x :=
  hx.comp fun d => d.2.2

theorem Keeps.output_of_surface {x : Action α} (hx : Keeps World.surface x) :
    Keeps World.output x :=
  hx.comp Prod.fst

/-! ## Warnings -/

/-- What is logged at another level is no warning. -/
theorem keeps_warnings_log {level : Level} (hl : level ≠ .warning) (source : Source)
    (message : String) : Keeps World.warnings (log level source message) := by
  intro h w
  show (w.log ++ [(⟨level, source, message⟩ : LogRecord)]).filter _ = _
  rw [List.filter_append, List.filter_cons_of_neg (by simpa using hl), List.filter_nil,
    List.append_nil]
  rfl

theorem warnings_log (source : Source) (message : String) (h : Host) (w : World) :
    ((log .warning source message).run h w).2.warnings =
      w.warnings ++ [.warning source message] := by
  show (w.log ++ [LogRecord.warning source message]).filter _ = _
  rw [List.filter_append]
  rfl

theorem warnings_forM_log (source : Source) (h : Host) : ∀ (messages : List String) (w : World),
    ((messages.forM (log .warning source)).run h w).2.warnings =
      w.warnings ++ messages.map (.warning source)
  | [], w => (List.append_nil _).symm
  | message :: messages, w => by
    obtain ⟨_, w₁, hr, -⟩ := (returns_log .warning source message).run h w
    have hw := warnings_log source message h w
    rw [hr] at hw
    show ((log .warning source message >>= fun _ =>
      messages.forM (log .warning source)).run h w).2.warnings = _
    rw [bind_of_ok hr, warnings_forM_log source h messages w₁, hw, List.map_cons,
      List.append_assoc, List.singleton_append]

theorem keeps_tally_log {level : Level} (hl : level ≠ .warning) (source : Source)
    (message : String) : Keeps World.tally (log level source message) := by
  intro h w
  have hw := keeps_warnings_log hl source message h w
  exact Prod.ext rfl (Prod.ext rfl hw)

/-- A warning comes on top of the warnings, and nothing else of what can be told. -/
theorem grows_log (source : Source) (message : String) (h : Host) (w : World) :
    World.Grows w ((log .warning source message).run h w).2 [] [] [.warning source message] where
  output := (List.append_nil _).symm
  calls := (List.append_nil _).symm
  warnings := warnings_log source message h w
  complaints := rfl
  started := rfl

/-! ## Lines -/

theorem forM_printLine_run (h : Host) : ∀ (lines : List String) (w : World),
    (lines.forM printLine).run h w =
      (.ok (), { w with output := w.output ++ lines.map fun line => line ++ "\n" })
  | [], w => by
    rw [List.map_nil, List.append_nil]
    rfl
  | line :: lines, w => by
    have hline : (printLine line).run h w =
        (.ok (), { w with output := w.output ++ [line ++ "\n"] }) := rfl
    show ((printLine line >>= fun _ => lines.forM printLine).run h w) = _
    rw [bind_of_ok hline, forM_printLine_run h lines, List.append_assoc, List.singleton_append,
      List.map_cons]

/-! ## The disk -/

/-- The disk is not among what the view sees. -/
def DiskFree (view : World → δ) : Prop :=
  ∀ w d, view { w with disk := d } = view w

theorem diskFree_surface : DiskFree World.surface :=
  fun _ _ => rfl

theorem diskFree_tally : DiskFree World.tally :=
  fun _ _ => rfl

theorem keeps_setDisk {view : World → δ} (hv : DiskFree view) (d : Disk) :
    Keeps view (setDisk d) :=
  Keeps.modify fun w => hv w d

theorem keeps_surface_setDisk (d : Disk) : Keeps World.surface (setDisk d) :=
  keeps_setDisk diskFree_surface d

theorem keeps_askDisk {view : World → δ} (question : Disk → Except OsFault α) :
    Keeps view (askDisk question) := by
  refine Keeps.disk.bind fun d => ?_
  cases question d with
  | ok a => exact Keeps.pure a
  | error f => exact Keeps.fail _

theorem askDisk_run {question : Disk → Except OsFault α} {a : α} (hq : question w.disk = .ok a) :
    (askDisk question).run h w = (.ok a, w) := by
  unfold askDisk
  rw [bind_of_ok (disk_run h w), hq]
  rfl

theorem askDisk_run_error {question : Disk → Except OsFault α} {f : OsFault}
    (hq : question w.disk = .error f) : (askDisk question).run h w = (.error (.disk f), w) := by
  unfold askDisk
  rw [bind_of_ok (disk_run h w), hq]
  rfl

/-- Asking leaves the world as it is. -/
theorem askDisk_ok_iff {question : Disk → Except OsFault α} {a : α} {w' : World} :
    (askDisk question).run h w = (.ok a, w') ↔ question w.disk = .ok a ∧ w' = w := by
  cases hq : question w.disk with
  | ok b =>
    rw [askDisk_run hq]
    constructor
    · rintro ⟨⟩
      exact ⟨rfl, rfl⟩
    · rintro ⟨⟨⟩, rfl⟩
      rfl
  | error f =>
    rw [askDisk_run_error hq]
    constructor
    · rintro ⟨⟩
    · rintro ⟨⟨⟩, -⟩

theorem changeDisk_run {change : Disk → Except OsFault Disk} {d : Disk}
    (hc : change w.disk = .ok d) :
    (changeDisk change).run h w = (.ok (), { w with disk := d }) := by
  unfold changeDisk
  rw [bind_of_ok (disk_run h w), hc]
  rfl

theorem refuseNull_run {s : String} (hs : Disk.hasNull s = false) :
    (refuseNull s).run h w = (.ok (), w) := by
  unfold refuseNull
  rw [hs]
  rfl

theorem changeDisk_run_error {change : Disk → Except OsFault Disk} {f : OsFault}
    (hc : change w.disk = .error f) : (changeDisk change).run h w = (.error (.disk f), w) := by
  unfold changeDisk
  rw [bind_of_ok (disk_run h w), hc]
  rfl

theorem keeps_changeDisk {view : World → δ} (hv : DiskFree view)
    (change : Disk → Except OsFault Disk) : Keeps view (changeDisk change) := by
  refine Keeps.disk.bind fun d => ?_
  cases change d with
  | ok d' => exact keeps_setDisk hv d'
  | error f => exact Keeps.fail _

theorem keeps_surface_changeDisk (change : Disk → Except OsFault Disk) :
    Keeps World.surface (changeDisk change) :=
  keeps_changeDisk diskFree_surface change

/-- What can go wrong with a change of the disk is the disk's fault. -/
theorem changeDisk_cases (change : Disk → Except OsFault Disk) (h : Host) (w : World) :
    ((changeDisk change).run h w).1 = .ok () ∨
      ∃ f, ((changeDisk change).run h w).1 = .error (.disk f) := by
  unfold changeDisk
  rw [bind_of_ok (disk_run h w)]
  cases change w.disk with
  | ok d => exact .inl rfl
  | error f => exact .inr ⟨f, rfl⟩

theorem keeps_refuseNull {view : World → δ} (s : String) : Keeps view (refuseNull s) :=
  Keeps.ite (Keeps.fail _) (Keeps.pure ())

theorem keeps_surface_makeDirectories (path : Path) :
    Keeps World.surface (makeDirectories path) := by
  refine (keeps_refuseNull _).bind fun _ => Keeps.host.bind fun _ => Keeps.disk.bind fun d => ?_
  refine Keeps.ite (Keeps.fail _) (Keeps.disk.bind fun d => ?_)
  rcases d.makeDirectories path with ⟨d', _ | _⟩
  · exact (keeps_surface_setDisk d').bind fun _ => Keeps.fail _
  · exact (keeps_surface_setDisk d').bind fun _ => Keeps.pure _

/-! ## Faults -/

/-- Whatever fault a run of the action ends with, `P` holds of it. -/
def Faults (x : Action α) (P : Fault → Prop) : Prop :=
  ∀ h w e w', x.run h w = (.error e, w') → P e

namespace Faults

variable {x : Action α} {f : α → Action β} {P Q : Fault → Prop}

theorem of_returns {R : α → Prop} (hx : Returns x R) : Faults x P := by
  intro h w e w' hr
  obtain ⟨a, ha, -⟩ := hx h w
  rw [hr] at ha
  cases ha

theorem pure (a : α) : Faults (Pure.pure a : Action α) P := by
  intro h w e w' hr
  cases hr

theorem fail {e : Fault} (he : P e) : Faults (Action.fail e : Action α) P := by
  intro h w e' w' hr
  cases hr
  exact he

theorem ofExcept {r : Except Fault α} (hr : ∀ e, r = .error e → P e) :
    Faults (Action.ofExcept r) P := by
  intro h w e w' he
  rw [ofExcept_run, Prod.mk.injEq] at he
  exact hr e he.1

theorem bind (hx : Faults x P) (hf : ∀ a, Faults (f a) P) : Faults (x >>= f) P := by
  intro h w e w' hr
  rcases hx₁ : x.run h w with ⟨e₁ | a, w₁⟩
  · rw [bind_of_error hx₁] at hr
    cases hr
    exact hx h w e w' hx₁
  · rw [bind_of_ok hx₁] at hr
    exact hf a h w₁ e w' hr

/-- A fault that is handed over is one that the attempted action can end with. -/
theorem bind_attempt {k : Except Fault α → Action β} (hx : Faults x P)
    (hok : ∀ a, Faults (k (.ok a)) Q) (herror : ∀ e, P e → Faults (k (.error e)) Q) :
    Faults (Action.attempt x >>= k) Q := by
  intro h w e w' hr
  rw [bind_of_ok (attempt_run x h w)] at hr
  rcases hx₁ : x.run h w with ⟨e₁ | a, w₁⟩
  · rw [hx₁] at hr
    exact herror e₁ (hx h w e₁ w₁ hx₁) h w₁ e w' hr
  · rw [hx₁] at hr
    exact hok a h w₁ e w' hr

theorem ite {c : Prop} [Decidable c] {y : Action α} (hx : Faults x P) (hy : Faults y P) :
    Faults (if c then x else y) P := by
  split
  · exact hx
  · exact hy

theorem mapM {g : α → Action β} :
    ∀ (l : List α), (∀ a ∈ l, Faults (g a) P) → Faults (l.mapM g) P
  | [], _ => Faults.pure []
  | a :: l, hl => by
    rw [List.mapM_cons]
    exact (hl a List.mem_cons_self).bind fun _ =>
      (mapM l fun b hb => hl b (List.mem_cons_of_mem a hb)).bind fun _ => Faults.pure _

theorem forM {g : α → Action Unit} :
    ∀ (l : List α), (∀ a ∈ l, Faults (g a) P) → Faults (l.forM g) P
  | [], _ => Faults.pure ()
  | a :: l, hl => by
    show Faults (g a >>= fun _ => l.forM g) P
    exact (hl a List.mem_cons_self).bind fun _ =>
      forM l fun b hb => hl b (List.mem_cons_of_mem a hb)

/-- What can go wrong with a question to the disk is the disk's fault. -/
theorem askDisk {question : Disk → Except OsFault α} (hP : ∀ f, P (.disk f)) :
    Faults (Action.askDisk question) P := by
  refine (of_returns Returns.disk).bind fun d => ?_
  cases question d with
  | ok a => exact Faults.pure a
  | error f => exact Faults.fail (hP f)

theorem changeDisk {change : Disk → Except OsFault Disk} (hP : ∀ f, P (.disk f)) :
    Faults (Action.changeDisk change) P := by
  intro h w e w' hr
  rcases changeDisk_cases change h w with hc | ⟨f, hc⟩
  · rw [hr] at hc
    cases hc
  · rw [hr, Except.error.injEq] at hc
    rw [hc]
    exact hP f

theorem refuseNull {s : String} (hP : P .nullByte) : Faults (Action.refuseNull s) P :=
  Faults.ite (Faults.fail hP) (Faults.pure ())

end Faults

/-! ## Two runs -/

/-- Two runs of the action on this host that start in related worlds end alike and in related
worlds. -/
def Respects (h : Host) (R : World → World → Prop) (x : Action α) : Prop :=
  ∀ w w', R w w' → (x.run h w).1 = (x.run h w').1 ∧ R (x.run h w).2 (x.run h w').2

/-- The relation is about what has been done, whatever has been said. -/
def Silent (R : World → World → Prop) : Prop :=
  ∀ w₁ w₁' w₂ w₂', w₂.deeds = w₁.deeds → w₂'.deeds = w₁'.deeds → R w₁ w₁' → R w₂ w₂'

namespace Respects

variable {R : World → World → Prop} {x : Action α} {f : α → Action β}

theorem pure (a : α) : Respects h R (Pure.pure a : Action α) :=
  fun _ _ hR => ⟨rfl, hR⟩

theorem fail (e : Fault) : Respects h R (Action.fail e : Action α) :=
  fun _ _ hR => ⟨rfl, hR⟩

theorem ofExcept (r : Except Fault α) : Respects h R (Action.ofExcept r) :=
  fun _ _ hR => ⟨rfl, hR⟩

theorem bind (hx : Respects h R x) (hf : ∀ a, Respects h R (f a)) : Respects h R (x >>= f) := by
  intro w w' hR
  obtain ⟨hvalue, hworld⟩ := hx w w' hR
  rcases hr : x.run h w with ⟨e | a, w₁⟩ <;> rcases hr' : x.run h w' with ⟨e' | a', w₁'⟩ <;>
    rw [hr, hr'] at hvalue hworld
  · cases hvalue
    rw [bind_of_error hr, bind_of_error hr']
    exact ⟨rfl, hworld⟩
  · cases hvalue
  · cases hvalue
  · cases hvalue
    rw [bind_of_ok hr, bind_of_ok hr']
    exact hf a w₁ w₁' hworld

/-- After a check, its result is known. -/
theorem bind_ofExcept {r : Except Fault α} (hf : ∀ a, r = .ok a → Respects h R (f a)) :
    Respects h R (Action.ofExcept r >>= f) := by
  cases r with
  | error e => exact fail e
  | ok a => exact hf a rfl

theorem ite {c : Prop} [Decidable c] {y : Action α} (hx : Respects h R x) (hy : Respects h R y) :
    Respects h R (if c then x else y) := by
  split
  · exact hx
  · exact hy

/-- Talk that returns the same in all worlds. -/
theorem of_returns {a : α} (hR : Silent R) (hx : Returns x (· = a)) (hk : Keeps World.deeds x) :
    Respects h R x := by
  intro w w' hw
  obtain ⟨_, ha, rfl⟩ := hx h w
  obtain ⟨_, ha', rfl⟩ := hx h w'
  rw [ha, ha']
  exact ⟨rfl, hR w w' _ _ (hk h w) (hk h w') hw⟩

/-- Talk that has nothing to return. -/
theorem of_talk {x : Action Unit} (hR : Silent R) (hx : Returns x fun _ => True)
    (hk : Keeps World.deeds x) : Respects h R x :=
  of_returns (a := ()) hR (fun h w => (hx h w).imp fun _ ha => ⟨ha.1, rfl⟩) hk

end Respects

end Action

end Assay
