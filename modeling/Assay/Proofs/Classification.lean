import Assay.Proofs.Action
import Assay.Proofs.Panic
import Assay.Selection
import Assay.Verification

/-!
# What the tables decide

A run's verdict is that of its first deciding line, and a line's verdict that of the first rule
which matches it. `verdict?_eq_some_iff` states the first through a split of the lines, and the
lemmas on `verdictOfLine?` of joined tables state the second for a table that is cut into parts.

`Tool.reading` is what a tool's tables read off a capture, without the log; `classify_returns` says
that classification always ends, with this value.
-/

namespace Assay

namespace Classification

variable {rules xs ys : List Rule} {ctx : LineContext} {line : String}

/-! ## Parts of a table -/

/-- Whether the rule decides for a verdict other than `verified`. -/
def failing (r : Rule) : Bool :=
  match r.signal with
  | .verdict v => v ≠ .verified
  | _ => false

theorem verdictOfLine?_cons (r : Rule) (rest : List Rule) :
    verdictOfLine? (r :: rest) ctx line =
      if r.condition.holds ctx line then r.signal.verdict? ctx
      else verdictOfLine? rest ctx line := by
  unfold verdictOfLine? ofLine firstMatch
  rw [List.find?_cons]
  cases r.condition.holds ctx line <;> simp

theorem verdictOfLine?_nil : verdictOfLine? [] ctx line = none := rfl

/-- A part none of whose rules matches is passed over. -/
theorem verdictOfLine?_append_of_forall (h : ∀ r ∈ xs, ¬ r.condition.holds ctx line = true) :
    verdictOfLine? (xs ++ ys) ctx line = verdictOfLine? ys ctx line := by
  have hn : xs.find? (fun r => r.condition.holds ctx line) = none := List.find?_eq_none.mpr h
  unfold verdictOfLine? ofLine firstMatch
  rw [List.find?_append, hn, Option.none_or]

/-- A part of failing rules one of which matches decides, and not for `verified`. -/
theorem verdictOfLine?_append_of_exists (hf : xs.all failing = true)
    (h : ∃ r ∈ xs, r.condition.holds ctx line = true) :
    ∃ v, verdictOfLine? (xs ++ ys) ctx line = some v ∧ v ≠ .verified := by
  obtain ⟨r, hr⟩ := Option.isSome_iff_exists.mp (List.find?_isSome.mpr h)
  have hr' := List.all_eq_true.mp hf r (List.mem_of_find?_eq_some hr)
  unfold verdictOfLine? ofLine firstMatch
  rw [List.find?_append, hr, Option.some_or]
  unfold failing at hr'
  cases hs : r.signal with
  | verdict v =>
    rw [hs] at hr'
    exact ⟨v, by simp [hs, Signal.verdict?], by simpa using hr'⟩
  | completion => simp [hs] at hr'
  | noSignal => simp [hs] at hr'

/-! ## The first deciding line -/

/-- **The first deciding line decides the run**, whatever follows it. -/
theorem verdict?_eq_some_iff {lines : List String} {v : Verdict} :
    verdict? rules ctx lines = some v ↔ ∃ pre line post, lines = pre ++ line :: post ∧
      (∀ l ∈ pre, verdictOfLine? rules ctx l = none) ∧ verdictOfLine? rules ctx line = some v := by
  unfold verdict?
  rw [List.findSome?_eq_some_iff]
  constructor
  · rintro ⟨pre, line, post, hs, hv, hpre⟩
    exact ⟨pre, line, post, hs, hpre, hv⟩
  · rintro ⟨pre, line, post, hs, hpre, hv⟩
    exact ⟨pre, line, post, hs, hv, hpre⟩

/-! ## Classification ends -/

theorem logNotes_returns (messages : List String) :
    Action.Returns (logNotes messages) fun _ => True :=
  Action.Returns.forM _ fun _ _ => Action.returns_log _ _ _

theorem classify_returns (rules : List Rule) (expect : Expectation) (name : String)
    (lines : List String) :
    Action.Returns (classify rules expect name lines)
      (· = (verdict? rules ⟨expect, name⟩ lines).getD .unknown) := by
  refine (logNotes_returns _).seq fun _ => ?_
  cases verdict? rules ⟨expect, name⟩ lines with
  | some v => exact Action.Returns.pure rfl
  | none =>
    refine Action.Returns.seq (Action.Returns.forM _ fun _ _ => Action.returns_log _ _ _) ?_
    exact fun _ => Action.Returns.pure rfl

theorem keeps_logNotes {δ : Type} {view : World → δ} (hv : Action.LogFree view)
    (messages : List String) : Action.Keeps view (logNotes messages) :=
  Action.Keeps.forM _ fun _ _ => Action.keeps_log hv _ _ _

theorem keeps_classify {δ : Type} {view : World → δ} (hv : Action.LogFree view)
    (rules : List Rule) (expect : Expectation) (name : String) (lines : List String) :
    Action.Keeps view (classify rules expect name lines) := by
  refine (keeps_logNotes hv _).bind fun _ => ?_
  cases verdict? rules ⟨expect, name⟩ lines with
  | some v => exact Action.Keeps.pure v
  | none =>
    refine Action.Keeps.bind (Action.Keeps.forM _ fun _ _ => Action.keeps_log hv _ _ _) ?_
    exact fun _ => Action.Keeps.pure _

end Classification

namespace Marker

theorem extract_returns (lines : List String) :
    Action.Returns (extract lines) (· = expectation lines) := by
  refine Action.Returns.seq (Action.Returns.forM _ fun text _ => ?_) fun _ =>
    Action.Returns.pure rfl
  split
  · exact Action.Returns.pure trivial
  · exact Action.returns_log _ _ _

theorem keeps_extract {δ : Type} {view : World → δ} (hv : Action.LogFree view)
    (lines : List String) : Action.Keeps view (extract lines) :=
  Action.Keeps.bind (Action.Keeps.forM _ fun _ _ =>
    Action.Keeps.ite (Action.Keeps.pure ()) (Action.keeps_log hv _ _ _)) fun _ =>
      Action.Keeps.pure _

end Marker

/-- The expectation that a tool announces in a capture. -/
def Tool.expectation (t : Tool) (capture : Capture) : Expectation :=
  Marker.expectation (capture.lines t.markerStreams)

/-- The verdict and the expectation that a tool's tables read off a capture. -/
def Tool.reading (t : Tool) (capture : Capture) (name : String) : Verdict × Expectation :=
  ((Classification.verdict? t.rules ⟨t.expectation capture, name⟩
    (capture.lines t.verdictStreams)).getD .unknown, t.expectation capture)

/-- The backends that are verifiers of their own: KLEE, SeaHorn and SMACK. -/
def Backend.IsVerifier (b : Backend) : Prop :=
  b ∈ Selection.preference

theorem Backend.isVerifier_iff {b : Backend} :
    b.IsVerifier ↔ b = .klee ∨ b = .seahorn ∨ b = .smack := by
  simp [IsVerifier, Selection.preference]

theorem Backend.IsVerifier.rules_eq {b : Backend} (hb : b.IsVerifier) :
    b.rules = .ok b.tool.rules := by
  rcases isVerifier_iff.mp hb with rfl | rfl | rfl <;> rfl

theorem Backend.IsVerifier.ranks_eq {b : Backend} (hb : b.IsVerifier) :
    b.ranks = .ok b.tool.ranks := by
  rcases isVerifier_iff.mp hb with rfl | rfl | rfl <;> rfl

namespace Checker

/-- **Classification is a function of the output**: it always ends, with what the tables read. -/
theorem classify_returns {k : Checker} (hk : k.backend.IsVerifier) (capture : Capture)
    (name : String) :
    Action.Returns (k.classify capture name) (· = k.backend.tool.reading capture name) := by
  refine (Marker.extract_returns _).bind ?_
  rintro _ rfl
  refine (Action.Returns.ofExcept hk.rules_eq rfl).bind ?_
  rintro _ rfl
  refine (Classification.classify_returns _ _ _ _).bind ?_
  rintro _ rfl
  exact (Action.returns_log _ _ _).seq fun _ => Action.Returns.pure rfl

theorem keeps_classify {δ : Type} {view : World → δ} (hv : Action.LogFree view) (k : Checker)
    (capture : Capture) (name : String) : Action.Keeps view (k.classify capture name) :=
  (Marker.keeps_extract hv _).bind fun _ => (Action.Keeps.ofExcept _).bind fun _ =>
    (Classification.keeps_classify hv _ _ _ _).bind fun _ =>
      (Action.keeps_log hv _ _ _).bind fun _ => Action.Keeps.pure _

end Checker

end Assay
