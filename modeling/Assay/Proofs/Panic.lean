import Assay.Panic

/-!
# Which panic a line quotes

`Panic.Opens m cs` says that a panic message `m` opens the text `cs`: the fixed words, the message
up to the quote that ends it, a comma and a blank. `Panic.Quotes line m` says that `m` is the
message of the first place of the line where one opens. `find?_message_iff` is the main fact: the
search finds the quoted message and nothing else; `meets_iff` restates it for an expected panic.
-/

namespace Assay.Panic

open Assay.Text (singleQuote isBlank)

/-- The message `m` opens the text, and is properly closed. -/
def Opens (m cs : List Char) : Prop :=
  singleQuote ∉ m ∧ ∃ blank rest, isBlank blank = true ∧
    cs = opening.toList ++ (m ++ singleQuote :: ',' :: blank :: rest)

/-- The first message that opens somewhere in the line. -/
def Quotes (line m : String) : Prop :=
  ∃ pre rest, line.toList = pre ++ rest ∧ Opens m.toList rest ∧
    ∀ pre' rest' m', line.toList = pre' ++ rest' → pre'.length < pre.length → ¬ Opens m' rest'

/-! ## One place -/

theorem takeWhile_quote {m : List Char} (hm : singleQuote ∉ m) (rest : List Char) :
    (m ++ singleQuote :: rest).takeWhile (· != singleQuote) = m := by
  rw [List.takeWhile_append_of_pos (by
    intro c hc
    simpa using fun h : c = singleQuote => hm (h ▸ hc))]
  simp

theorem dropWhile_quote {m : List Char} (hm : singleQuote ∉ m) (rest : List Char) :
    (m ++ singleQuote :: rest).dropWhile (· != singleQuote) = singleQuote :: rest := by
  rw [List.dropWhile_append_of_pos (by
    intro c hc
    simpa using fun h : c = singleQuote => hm (h ▸ hc))]
  simp

theorem singleQuote_notMem_takeWhile (cs : List Char) :
    singleQuote ∉ cs.takeWhile (· != singleQuote) := by
  intro h
  simpa using List.all_eq_true.mp List.all_takeWhile singleQuote h

theorem eq_singleQuote_of_dropWhile {cs rest : List Char} {q : Char}
    (h : cs.dropWhile (· != singleQuote) = q :: rest) : q = singleQuote := by
  have hne : cs.dropWhile (· != singleQuote) ≠ [] := by rw [h]; simp
  have hq := List.head_dropWhile_not (· != singleQuote) hne
  simpa [h] using hq

theorem body?_of_split {m rest : List Char} {blank : Char} (hm : singleQuote ∉ m)
    (hb : isBlank blank = true) :
    ∃ p, body? (m ++ singleQuote :: ',' :: blank :: rest) = some p ∧
      p.message = String.ofList m := by
  unfold body?
  rw [dropWhile_quote hm, takeWhile_quote hm]
  simp [hb]

theorem split_of_body? {cs : List Char} {p : Panic} (h : body? cs = some p) :
    singleQuote ∉ p.message.toList ∧ ∃ blank rest, isBlank blank = true ∧
      cs = p.message.toList ++ singleQuote :: ',' :: blank :: rest := by
  unfold body? at h
  split at h
  · rename_i q rest hd
    split at h
    · rename_i hb
      cases h
      have hq := eq_singleQuote_of_dropWhile hd
      subst hq
      obtain _ | ⟨blank, rest'⟩ := rest
      · simp at hb
      refine ⟨by simpa using singleQuote_notMem_takeWhile cs, blank, rest', by simpa using hb, ?_⟩
      rw [String.toList_ofList, ← hd]
      exact List.takeWhile_append_dropWhile.symm
    · cases h
  · cases h

theorem opens_of_here? {cs : List Char} {p : Panic} (h : here? cs = some p) :
    Opens p.message.toList cs := by
  unfold here? at h
  split at h
  · rename_i ho
    obtain ⟨rest, rfl⟩ := List.isPrefixOf_iff_prefix.mp ho
    rw [List.drop_left] at h
    obtain ⟨hm, blank, rest', hb, hr⟩ := split_of_body? h
    exact ⟨hm, blank, rest', hb, by rw [hr]⟩
  · cases h

theorem here?_of_opens {m cs : List Char} (h : Opens m cs) :
    ∃ p, here? cs = some p ∧ p.message = String.ofList m := by
  obtain ⟨hm, blank, rest, hb, rfl⟩ := h
  unfold here?
  rw [if_pos (List.isPrefixOf_iff_prefix.mpr (List.prefix_append _ _)), List.drop_left]
  exact body?_of_split hm hb

/-! ## The first place -/

theorem search?_cons_of_none {c : Char} {cs : List Char} (h : here? (c :: cs) = none) :
    search? (c :: cs) = search? cs := by
  rw [search?, h]

theorem here?_nil : here? [] = none := by
  decide

/-- The search stops at the first place where a message opens. -/
theorem search?_eq_some_iff {cs : List Char} {p : Panic} :
    search? cs = some p ↔ ∃ pre rest, cs = pre ++ rest ∧ here? rest = some p ∧
      ∀ pre' rest', cs = pre' ++ rest' → pre'.length < pre.length → here? rest' = none := by
  induction cs with
  | nil =>
    constructor
    · intro h
      cases h
    · rintro ⟨pre, rest, hs, hr, -⟩
      obtain ⟨rfl, rfl⟩ := List.append_eq_nil_iff.mp hs.symm
      rw [here?_nil] at hr
      cases hr
  | cons c cs ih =>
    cases hc : here? (c :: cs) with
    | some q =>
      rw [search?, hc]
      constructor
      · rintro ⟨rfl⟩
        exact ⟨[], c :: cs, rfl, hc, fun _ _ _ hlt => absurd hlt (by simp)⟩
      · rintro ⟨pre, rest, hs, hr, hfirst⟩
        -- a message opens at once, so nothing can come before the place
        obtain _ | ⟨d, pre⟩ := pre
        · rw [List.nil_append] at hs
          rw [← hr, ← hs, hc]
        · have := hfirst [] (c :: cs) rfl (by simp)
          rw [hc] at this
          cases this
    | none =>
      rw [search?_cons_of_none hc, ih]
      constructor
      · rintro ⟨pre, rest, rfl, hr, hfirst⟩
        refine ⟨c :: pre, rest, rfl, hr, fun pre' rest' hs hlt => ?_⟩
        obtain _ | ⟨d, pre'⟩ := pre'
        · rw [List.nil_append] at hs
          rw [← hs, hc]
        · obtain ⟨-, hs⟩ := List.cons_eq_cons.mp hs
          exact hfirst pre' rest' hs (by simpa using hlt)
      · rintro ⟨pre, rest, hs, hr, hfirst⟩
        obtain _ | ⟨d, pre⟩ := pre
        · rw [List.nil_append] at hs
          rw [← hs, hc] at hr
          cases hr
        · obtain ⟨rfl, rfl⟩ := List.cons_eq_cons.mp hs
          exact ⟨pre, rest, rfl, hr, fun pre' rest' hs' hlt =>
            hfirst (c :: pre') rest' (by rw [hs']; rfl) (by simpa using hlt)⟩

/-- **The message that is found is the one that is quoted.** -/
theorem find?_message_iff {line m : String} :
    (∃ p, find? line = some p ∧ p.message = m) ↔ Quotes line m := by
  have hnone : ∀ rest : List Char, here? rest = none ↔ ∀ m', ¬ Opens m' rest := by
    intro rest
    constructor
    · intro hn m' ho
      obtain ⟨p, hp, -⟩ := here?_of_opens ho
      rw [hn] at hp
      cases hp
    · intro ho
      cases hr : here? rest with
      | none => rfl
      | some p => exact absurd (opens_of_here? hr) (ho _)
  constructor
  · rintro ⟨p, hp, rfl⟩
    obtain ⟨pre, rest, hs, hr, hfirst⟩ := search?_eq_some_iff.mp hp
    exact ⟨pre, rest, hs, opens_of_here? hr, fun pre' rest' m' hs' hlt =>
      (hnone rest').mp (hfirst pre' rest' hs' hlt) m'⟩
  · rintro ⟨pre, rest, hs, ho, hfirst⟩
    obtain ⟨p, hp, hm⟩ := here?_of_opens ho
    refine ⟨p, search?_eq_some_iff.mpr ⟨pre, rest, hs, hp, fun pre' rest' hs' hlt => ?_⟩, ?_⟩
    · exact (hnone rest').mpr fun m' => hfirst pre' rest' m' hs' hlt
    · rw [hm, String.ofList_toList]

/-! ## Expected panics -/

/-- An expected panic is a quoted message that holds the announced text. -/
theorem meets_iff {line : String} {expect : Expectation} :
    meets line expect = true ↔
      ∃ text m, expect = some text ∧ Quotes line m ∧ text.toList <:+: m.toList := by
  cases expect with
  | none => simp [meets, expected?]
  | some text =>
    constructor
    · intro h
      cases hf : find? line with
      | none => simp [meets, expected?, hf] at h
      | some p =>
        have hc : Text.contains text p.message = true := by
          simpa [meets, expected?, hf] using h
        exact ⟨text, p.message, rfl, find?_message_iff.mp ⟨p, hf, rfl⟩, Text.contains_iff.mp hc⟩
    · rintro ⟨_, m, ⟨rfl⟩, hq, hin⟩
      obtain ⟨p, hf, rfl⟩ := find?_message_iff.mpr hq
      simp [meets, expected?, hf, Text.contains_iff.mpr hin]

/-- Whoever quotes a message names the panic. -/
theorem Quotes.opening_infix {line m : String} (h : Quotes line m) :
    opening.toList <:+: line.toList := by
  obtain ⟨pre, rest, hs, ⟨-, blank, rest', -, rfl⟩, -⟩ := h
  exact ⟨pre, _, by rw [hs, List.append_assoc]⟩

/-! ## Panics of the main thread -/

/-- How a panic of the main thread begins. -/
def mainThread : String := "thread 'main'"

/-- What a program prints that panics with a message, and where. -/
def report (m place : String) : String :=
  mainThread ++ opening ++ m ++ "', " ++ place

theorem search?_mainThread (cs : List Char) : search? (mainThread.toList ++ cs) = search? cs := rfl

theorem meets_mainThread (line : String) (expect : Expectation) :
    meets (mainThread ++ line) expect = meets line expect := by
  unfold meets expected? find?
  rw [String.toList_append, search?_mainThread]

/-- The report from its opening on. -/
def reported (m place : List Char) : List Char :=
  opening.toList ++ (m ++ singleQuote :: (", ".toList ++ place))

theorem find?_report (m place : String) :
    find? (report m place) = search? (reported m.toList place.toList) := by
  have htext : (report m place).toList = mainThread.toList ++ reported m.toList place.toList := by
    have hclose : "', ".toList = singleQuote :: ", ".toList := by decide
    unfold report reported
    rw [String.toList_append, String.toList_append, String.toList_append, String.toList_append,
      hclose, List.append_assoc, List.append_assoc, List.append_assoc]
    rfl
  rw [find?, htext, search?_mainThread]

/-- A message without quotes is the one that is quoted. -/
theorem quotes_report {m : String} (hm : singleQuote ∉ m.toList) (place : String) :
    Quotes (report m place) m := by
  have hopens : Opens m.toList (reported m.toList place.toList) :=
    ⟨hm, ' ', place.toList, by decide, rfl⟩
  obtain ⟨p, hp, hmsg⟩ := here?_of_opens hopens
  refine find?_message_iff.mp ⟨p, ?_, by rw [hmsg, String.ofList_toList]⟩
  rw [find?_report]
  exact search?_eq_some_iff.mpr ⟨[], _, rfl, hp, fun _ _ _ hlt => absurd hlt (Nat.not_lt_zero _)⟩

/-- Behind its last quote a text has none, so what ends at a quote ends there or before. -/
theorem prefix_of_last_quote {xs ys zs ws : List Char} (hy : singleQuote ∉ ys)
    (h : xs ++ singleQuote :: zs = ws ++ singleQuote :: ys) : xs <+: ws := by
  rcases List.append_eq_append_iff.mp h with ⟨more, hws, -⟩ | ⟨more, hxs, hys⟩
  · exact ⟨more, hws.symm⟩
  · cases more with
    | nil => exact ⟨[], by rw [hxs, List.append_nil, List.append_nil]⟩
    | cons c more =>
      obtain ⟨-, rfl⟩ := List.cons_eq_cons.mp hys
      exact absurd (List.mem_append_right more List.mem_cons_self) hy

/-- **What is quoted of a report is a part of its message**, and has no quote in it. -/
theorem infix_of_quotes_report {m place r : String} (hplace : singleQuote ∉ place.toList)
    (h : Quotes (report m place) r) : r.toList <:+: m.toList ∧ singleQuote ∉ r.toList := by
  obtain ⟨p, hp, rfl⟩ := find?_message_iff.mpr h
  rw [find?_report] at hp
  obtain ⟨pre, rest, hsplit, hhere, -⟩ := search?_eq_some_iff.mp hp
  obtain ⟨hr, blank, tail, -, rfl⟩ := opens_of_here? hhere
  refine ⟨?_, hr⟩
  have htail : singleQuote ∉ ", ".toList ++ place.toList := by
    rw [List.mem_append, not_or]
    exact ⟨by decide, hplace⟩
  -- the quoted message ends at the quote that closes the report, or before it
  have hends : pre ++ opening.toList ++ p.message.toList <+: opening.toList ++ m.toList := by
    have hquote : pre ++ opening.toList ++ p.message.toList ++
          singleQuote :: (',' :: blank :: tail) =
        opening.toList ++ m.toList ++ singleQuote :: (", ".toList ++ place.toList) := by
      rw [List.append_assoc, List.append_assoc, List.append_assoc, ← hsplit, reported]
    exact prefix_of_last_quote htail hquote
  -- and it begins at an opening, which is the first or after it
  obtain ⟨after, hafter⟩ := hends
  have hm := congrArg (List.drop opening.toList.length) hafter
  rw [List.drop_left, List.append_assoc, List.drop_append_of_le_length (by
    rw [List.length_append]
    exact Nat.le_add_left _ _)] at hm
  exact ⟨_, after, by rw [← hm, List.append_assoc]⟩

end Assay.Panic
