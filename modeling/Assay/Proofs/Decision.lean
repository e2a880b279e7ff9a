import Assay.Proofs.Classification

/-!
# The first line that decides

A table's rules are asked in turn about a line, and the lines of a run in turn. `FirstRule` is the
rule that a line comes to, `Decides` the verdict that it brings, and `Passes` says that it brings
none; `decides_or_passes` tells that every line does one of the two, whatever the conditions of the
table are.

The verdict on a run is that of its first line that decides, and then nothing is warned about; what
follows this line is not read, and what stands before it might as well not be there. This is
`classify_first_deciding`, which also says what is logged of a run without such a line. A run whose
first deciding line says `unknown` has been decided: it comes to the same verdict as one that
nothing decides, but without the warnings.
-/

namespace Assay

namespace Classification

variable {rules : List Rule} {ctx : LineContext} {expect : Expectation} {name line : String}
  {lines xs ys : List String} {rule : Rule} {v : Verdict}

/-! ## One line -/

/-- The rule matches the line, and none of those before it in the table does. -/
inductive FirstRule (ctx : LineContext) (line : String) : List Rule → Rule → Prop where
  | found {before : List Rule} {rule : Rule} {after : List Rule}
    (passed : ∀ r ∈ before, r.condition.holds ctx line = false)
    (matched : rule.condition.holds ctx line = true) :
    FirstRule ctx line (before ++ rule :: after) rule

/-- The verdict that a signal stands for. The end of a run is no success if a panic was expected. -/
inductive Means (expect : Expectation) : Signal → Verdict → Prop where
  | verdict (v : Verdict) : Means expect (.verdict v) v
  | success (h : expect = none) : Means expect .completion .verified
  | missed {text : String} (h : expect = some text) : Means expect .completion .error

/-- The line comes to a rule with this verdict. -/
def Decides (rules : List Rule) (ctx : LineContext) (line : String) (v : Verdict) : Prop :=
  ∃ rule, FirstRule ctx line rules rule ∧ Means ctx.expect rule.signal v

/-- The line comes to no rule, or to one that takes it for no signal. -/
inductive Passes (rules : List Rule) (ctx : LineContext) (line : String) : Prop where
  | unmatched (h : ∀ r ∈ rules, r.condition.holds ctx line = false)
  | noSignal {rule : Rule} (h : FirstRule ctx line rules rule) (hs : rule.signal = .noSignal)

theorem firstMatch_eq_some_iff :
    firstMatch Rule.condition ctx line rules = some rule ↔ FirstRule ctx line rules rule := by
  unfold firstMatch
  rw [List.find?_eq_some_iff_append]
  constructor
  · rintro ⟨hm, before, after, rfl, hp⟩
    exact .found (fun r hr => by simpa using hp r hr) hm
  · rintro ⟨hp, hm⟩
    exact ⟨hm, _, _, rfl, fun r hr => by simpa using hp r hr⟩

theorem verdict?_signal_iff {s : Signal} : s.verdict? ctx = some v ↔ Means ctx.expect s v := by
  constructor
  · intro h
    cases s with
    | verdict v' =>
      cases h
      exact .verdict v
    | completion =>
      cases he : ctx.expect with
      | none =>
        rw [Signal.verdict?, he] at h
        cases h
        exact .success rfl
      | some text =>
        rw [Signal.verdict?, he] at h
        cases h
        exact .missed rfl
    | noSignal => cases h
  · rintro (_ | he | he)
    · rfl
    · rw [Signal.verdict?, he]
      rfl
    · rw [Signal.verdict?, he]
      rfl

theorem decides_iff : Decides rules ctx line v ↔ verdictOfLine? rules ctx line = some v := by
  have hline : verdictOfLine? rules ctx line =
      (firstMatch Rule.condition ctx line rules).bind fun r => r.signal.verdict? ctx := by
    unfold verdictOfLine? ofLine
    cases firstMatch Rule.condition ctx line rules <;> rfl
  rw [hline, Option.bind_eq_some_iff]
  exact exists_congr fun r => and_congr firstMatch_eq_some_iff.symm verdict?_signal_iff.symm

theorem passes_iff : Passes rules ctx line ↔ verdictOfLine? rules ctx line = none := by
  unfold verdictOfLine? ofLine
  constructor
  · rintro (h | ⟨h, hs⟩)
    · have hn : firstMatch Rule.condition ctx line rules = none :=
        List.find?_eq_none.mpr fun r hr => by rw [h r hr]; exact Bool.false_ne_true
      rw [hn]
    · rw [firstMatch_eq_some_iff.mpr h]
      dsimp only
      rw [hs]
      rfl
  · intro h
    cases hf : firstMatch Rule.condition ctx line rules with
    | none =>
      refine .unmatched fun r hr => ?_
      exact Bool.eq_false_iff.mpr (List.find?_eq_none.mp hf r hr)
    | some rule =>
      rw [hf] at h
      refine .noSignal (firstMatch_eq_some_iff.mp hf) ?_
      cases hs : rule.signal with
      | noSignal => rfl
      | _ =>
        dsimp only at h
        rw [hs] at h
        cases h

/-- **Every line decides or passes**, and none does both. -/
theorem decides_or_passes (rules : List Rule) (ctx : LineContext) (line : String) :
    (∀ v, ¬ Decides rules ctx line v) ↔ Passes rules ctx line := by
  rw [passes_iff, Option.eq_none_iff_forall_ne_some]
  exact forall_congr' fun v => not_congr decides_iff

/-! ## The lines of a run -/

/-- The lines are classified with this verdict, and these are the warnings. -/
structure Classified (rules : List Rule) (expect : Expectation) (name : String)
    (lines : List String) (v : Verdict) (warnings : List String) : Prop where
  verdict : ∀ h w, ((classify rules expect name lines).run h w).1 = .ok v
  warnings : ∀ h w, ((classify rules expect name lines).run h w).2.warnings =
    w.warnings ++ warnings.map (.warning .classifier)

theorem keeps_warnings_logNotes (messages : List String) :
    Action.Keeps World.warnings (logNotes messages) :=
  Action.Keeps.forM _ fun _ _ => Action.keeps_warnings_log (by decide) _ _

/-- What is warned about while lines with this verdict, or none, are classified. -/
def warningsOf (name : String) (lines : List String) : Option Verdict → List String
  | some _ => []
  | none => undecidedWarnings name lines

/-- **What a classification comes to** is read off the lines. -/
theorem classified (rules : List Rule) (expect : Expectation) (name : String)
    (lines : List String) :
    Classified rules expect name lines ((verdict? rules ⟨expect, name⟩ lines).getD .unknown)
      (warningsOf name lines (verdict? rules ⟨expect, name⟩ lines)) where
  verdict := Action.Returns.value (classify_returns rules expect name lines)
  warnings h w := by
    obtain ⟨_, w₁, hr, -⟩ := (logNotes_returns (notes rules ⟨expect, name⟩ lines)).run h w
    have hw := (keeps_warnings_logNotes _).of_run hr
    unfold classify
    rw [Action.bind_of_ok hr]
    cases hv : verdict? rules ⟨expect, name⟩ lines with
    | some v => exact hw.trans (List.append_nil _).symm
    | none =>
      have hreturns := Action.Returns.forM (g := Action.log .warning .classifier)
        (undecidedWarnings name lines) fun _ _ => Action.returns_log _ _ _
      obtain ⟨_, w₂, hr₂, -⟩ := hreturns.run h w₁
      have hw₂ := Action.warnings_forM_log .classifier h (undecidedWarnings name lines) w₁
      rw [hr₂, hw] at hw₂
      rw [Action.bind_of_ok hr₂]
      exact hw₂

/-- None of the lines decides. -/
def Undecided (rules : List Rule) (ctx : LineContext) (lines : List String) : Prop :=
  ∀ line ∈ lines, ∀ v, ¬ Decides rules ctx line v

theorem undecided_iff :
    Undecided rules ctx lines ↔ ∀ l ∈ lines, verdictOfLine? rules ctx l = none :=
  forall₂_congr fun l _ => (decides_or_passes rules ctx l).trans passes_iff

theorem verdict?_append (hxs : Undecided rules ctx xs) (ys : List String) :
    verdict? rules ctx (xs ++ ys) = verdict? rules ctx ys := by
  have hnone : xs.findSome? (verdictOfLine? rules ctx) = none :=
    List.findSome?_eq_none_iff.mpr (undecided_iff.mp hxs)
  unfold verdict?
  rw [List.findSome?_append, hnone, Option.none_or]

theorem verdict?_append_cons (hp : Passes rules ctx line) (xs ys : List String) :
    verdict? rules ctx (xs ++ line :: ys) = verdict? rules ctx (xs ++ ys) := by
  unfold verdict?
  rw [List.findSome?_append, List.findSome?_append, List.findSome?_cons, passes_iff.mp hp]

/-- Lines that the table reads alike are classified alike. -/
theorem classify_congr {lines lines' : List String}
    (hv : verdict? rules ⟨expect, name⟩ lines = verdict? rules ⟨expect, name⟩ lines') (h : Host)
    (w : World) : ((classify rules expect name lines).run h w).1 =
      ((classify rules expect name lines').run h w).1 := by
  rw [(classified rules expect name lines).verdict h w,
    (classified rules expect name lines').verdict h w, hv]

/-- **The first line that decides settles the run.** Whatever the table, the expectation and the
name: if a line of `xs` decides, then `xs`, and `xs` with any lines behind it, are classified with
the verdict of the first line that does, and nothing is warned about. If none does, they may be left
out before `ys`. Where no line decides at all, the verdict is `unknown`, and the warnings are one
for the run and one for each of its lines, in order. A line that passes changes no verdict, wherever
it is put in. -/
theorem classify_first_deciding (rules : List Rule) (expect : Expectation) (name : String) :
    (∀ xs ys, (∃ line ∈ xs, ∃ v, Decides rules ⟨expect, name⟩ line v) →
      ∃ before line after v, xs = before ++ line :: after ∧
        Undecided rules ⟨expect, name⟩ before ∧ Decides rules ⟨expect, name⟩ line v ∧
        Classified rules expect name xs v [] ∧ Classified rules expect name (xs ++ ys) v []) ∧
    (∀ xs ys, Undecided rules ⟨expect, name⟩ xs → ∀ h w,
      ((classify rules expect name (xs ++ ys)).run h w).1 =
        ((classify rules expect name ys).run h w).1) ∧
    (∀ lines, Undecided rules ⟨expect, name⟩ lines →
      Classified rules expect name lines .unknown
        (("Unable to determine status of " ++ name) ::
          lines.map fun line => "     " ++ name ++ ": " ++ line)) ∧
    ∀ xs line ys, Passes rules ⟨expect, name⟩ line → ∀ h w,
      ((classify rules expect name (xs ++ line :: ys)).run h w).1 =
        ((classify rules expect name (xs ++ ys)).run h w).1 := by
  refine ⟨fun xs ys hxs => ?_, fun xs ys hxs => classify_congr (verdict?_append hxs ys),
    fun lines hlines => ?_, fun xs line ys hp => classify_congr (verdict?_append_cons hp xs ys)⟩
  · obtain ⟨line, hline, v, hv⟩ := hxs
    have hsome : (verdict? rules ⟨expect, name⟩ xs).isSome :=
      List.findSome?_isSome_iff.mpr ⟨line, hline, by rw [decides_iff.mp hv]; rfl⟩
    obtain ⟨v, hv⟩ := Option.isSome_iff_exists.mp hsome
    obtain ⟨before, line, after, hsplit, hbefore, hdecides⟩ := verdict?_eq_some_iff.mp hv
    have hmore : verdict? rules ⟨expect, name⟩ (xs ++ ys) = some v := by
      refine verdict?_eq_some_iff.mpr ⟨before, line, after ++ ys, ?_, hbefore, hdecides⟩
      rw [hsplit, List.append_assoc, List.cons_append]
    have hclassified := classified rules expect name xs
    have hclassified' := classified rules expect name (xs ++ ys)
    rw [hv] at hclassified
    rw [hmore] at hclassified'
    exact ⟨before, line, after, v, hsplit, undecided_iff.mpr hbefore, decides_iff.mpr hdecides,
      hclassified, hclassified'⟩
  · have hnone : verdict? rules ⟨expect, name⟩ lines = none :=
      List.findSome?_eq_none_iff.mpr (undecided_iff.mp hlines)
    have hclassified := classified rules expect name lines
    rw [hnone] at hclassified
    exact hclassified

/-- A table that takes comments for no signal and odd lines for a reason to give up. -/
def sampleRules : List Rule :=
  [⟨"comment", .startsWith "#", .noSignal⟩, ⟨"odd", .contains "odd", .verdict .unknown⟩,
    ⟨"done", .equals "done", .completion⟩]

/-- A comment passes, odd or not. The odd line behind it decides, and it decides for `unknown`, so
that nothing is warned about and the end of the run comes too late. -/
theorem classify_first_deciding_unknown :
    Passes sampleRules ⟨none, "t"⟩ "# odd" ∧
      (∃ line ∈ ["# odd", "how odd"], ∃ v, Decides sampleRules ⟨none, "t"⟩ line v) ∧
      ∃ before line after v, ["# odd", "how odd"] = before ++ line :: after ∧
        Undecided sampleRules ⟨none, "t"⟩ before ∧ Decides sampleRules ⟨none, "t"⟩ line v ∧
        v = .unknown ∧ Classified sampleRules none "t" ["# odd", "how odd", "done"] v [] := by
  have hcomment : Passes sampleRules ⟨none, "t"⟩ "# odd" := passes_iff.mpr (by decide)
  have hodd : Decides sampleRules ⟨none, "t"⟩ "how odd" .unknown := decides_iff.mpr (by decide)
  have hlines : ∃ line ∈ ["# odd", "how odd"], ∃ v, Decides sampleRules ⟨none, "t"⟩ line v :=
    ⟨"how odd", by simp, .unknown, hodd⟩
  obtain ⟨before, line, after, v, hsplit, hbefore, hline, -, hmore⟩ :=
    (classify_first_deciding sampleRules none "t").1 ["# odd", "how odd"] ["done"] hlines
  refine ⟨hcomment, hlines, before, line, after, v, hsplit, hbefore, hline, ?_, hmore⟩
  have hmem : line ∈ ["# odd", "how odd"] := hsplit ▸ List.mem_append_right _ List.mem_cons_self
  have hv := decides_iff.mp hline
  rcases List.mem_cons.mp hmem with rfl | hmem
  · rw [passes_iff.mp hcomment] at hv
    cases hv
  · rw [List.mem_singleton.mp hmem, decides_iff.mp hodd] at hv
    exact (Option.some.inj hv).symm

end Classification

end Assay
