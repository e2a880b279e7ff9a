import Assay.Proofs.Json
import Assay.Proofs.Statistics
import Mathlib.Data.List.Induction

/-!
# Reported numbers are read back

KLEE reports a number under a name in a line of its own, `reportLine`, and the name may be any text
in one line, even one that looks like a report. `addLine_report` is what one such line adds to the
numbers found so far. The whole run is `parse_tallies`: whatever stands between the reports, every
name has its last number, and the names stand in the order in which they first occurred, `Tallies`.
-/

namespace Assay

namespace Json

variable {κ α : Type} [DecidableEq κ] {k k' : κ}

/-- A name that is put again keeps its place. -/
theorem map_fst_put (k : κ) (v : α) (ms : List (κ × α)) :
    (put k v ms).map Prod.fst =
      if k ∈ ms.map Prod.fst then ms.map Prod.fst else ms.map Prod.fst ++ [k] := by
  induction ms with
  | nil => rfl
  | cons m rest ih =>
    obtain ⟨k₁, v₁⟩ := m
    by_cases h : k₁ = k
    · simp [put, h]
    · by_cases hk : k ∈ rest.map Prod.fst
      · rw [if_pos hk] at ih
        rw [put, if_neg h, List.map_cons, List.map_cons, ih,
          if_pos (List.mem_cons_of_mem k₁ hk)]
      · rw [if_neg hk] at ih
        have hcons : k ∉ k₁ :: rest.map Prod.fst :=
          fun hmem => (List.mem_cons.mp hmem).elim (fun he => h he.symm) hk
        rw [put, if_neg h, List.map_cons, List.map_cons, ih, if_neg hcons, List.cons_append]

/-- The other members are as they were. -/
theorem lookup_put_of_ne (h : k' ≠ k) (v : α) (ms : List (κ × α)) :
    (put k v ms).lookup k' = ms.lookup k' := by
  induction ms with
  | nil => rw [put_nil, List.lookup_cons, beq_false_of_ne h]
  | cons m rest ih =>
    obtain ⟨k₁, v₁⟩ := m
    by_cases hk : k₁ = k
    · rw [put, if_pos hk, List.lookup_cons, List.lookup_cons, beq_false_of_ne (hk ▸ h)]
    · rw [put, if_neg hk, List.lookup_cons, List.lookup_cons, ih]

theorem lookup_eq_none {ms : List (κ × α)} (h : k ∉ ms.map Prod.fst) : ms.lookup k = none := by
  refine List.lookup_eq_none_iff.mpr fun m hm => ?_
  have hne : k ≠ m.1 := fun he => h (he ▸ List.mem_map_of_mem hm)
  simpa using hne

/-- Where no name occurs twice, what is looked up determines the members. -/
theorem eq_of_lookup {ms ms' : List (κ × α)} (hnames : ms.map Prod.fst = ms'.map Prod.fst)
    (hnodup : (ms.map Prod.fst).Nodup) (h : ∀ k, ms.lookup k = ms'.lookup k) : ms = ms' := by
  induction ms generalizing ms' with
  | nil => exact (List.map_eq_nil_iff.mp hnames.symm).symm
  | cons m rest ih =>
    obtain ⟨k, v⟩ := m
    obtain ⟨⟨k', v'⟩, rest', rfl, rfl, htail⟩ := List.map_eq_cons_iff.mp hnames.symm
    have hk := List.nodup_cons.mp hnodup
    have hv : v = v' := by simpa using h k'
    have hrest : rest = rest' := by
      refine ih htail.symm hk.2 fun k => ?_
      by_cases he : k = k'
      · have hnone : rest.lookup k = none := lookup_eq_none (he ▸ hk.1)
        have hnone' : rest'.lookup k = none := lookup_eq_none (he ▸ htail ▸ hk.1)
        rw [hnone, hnone']
      · simpa [List.lookup_cons, beq_false_of_ne he] using h k
    rw [hv, hrest]

end Json

/-- What is left of a list without its repetitions has none. -/
theorem nodup_eraseDups {κ : Type} [DecidableEq κ] : ∀ ks : List κ, ks.eraseDups.Nodup
  | [] => List.nodup_nil
  | k :: ks => by
    have hlen : (ks.filter fun k' => !k' == k).length < ks.length + 1 :=
      Nat.lt_succ_of_le (List.length_filter_le _ ks)
    rw [List.eraseDups_cons, List.nodup_cons]
    refine ⟨?_, nodup_eraseDups _⟩
    simp [List.mem_eraseDups]
termination_by ks => ks.length

namespace Statistics

open Assay.Text

variable {name : String} {n : Nat} {found : List (String × Int)}

/-! ## One line -/

/-- The line in which a number is reported under a name. -/
def reportLine (name : String) (n : Nat) : String :=
  heading ++ " " ++ name ++ " = " ++ Number.integerText n

/-- A name that a number can be reported under: a text in one line that neither begins nor ends with
a blank. Nothing else is asked, so a name may be empty, or look like a report. -/
structure IsName (name : String) : Prop where
  oneLine : '\n' ∉ name.toList
  head : ∀ c, name.toList.head? = some c → isBlank c = false
  last : ∀ c, name.toList.getLast? = some c → isBlank c = false

theorem dropWhile_of_head {p : Char → Bool} {cs : List Char}
    (h : ∀ c, cs.head? = some c → p c = false) : cs.dropWhile p = cs := by
  cases cs with
  | nil => rfl
  | cons c cs =>
    have hc : ¬ p c = true := by
      rw [h c rfl]
      exact Bool.false_ne_true
    exact List.dropWhile_cons_of_neg hc

/-- What is cut off around a name is the blank behind it. -/
theorem IsName.trim_eq (hn : IsName name) :
    trim ((name.toList ++ [' ']).dropWhile isBlank) = name.toList := by
  have hhead : name.toList.dropWhile isBlank = name.toList := dropWhile_of_head hn.head
  have hspace : [' '].dropWhile isBlank = [] := by decide
  have hlast : name.toList.reverse.dropWhile isBlank = name.toList.reverse := by
    refine dropWhile_of_head fun c hc => hn.last c ?_
    rwa [List.head?_reverse] at hc
  by_cases hnil : name.toList = []
  · rw [hnil, List.nil_append, hspace]
    rfl
  · have hempty : name.toList.isEmpty = false := List.isEmpty_eq_false_iff.mpr hnil
    have hdrop : (name.toList ++ [' ']).dropWhile isBlank = name.toList ++ [' '] := by
      rw [List.dropWhile_append, hhead, hempty, if_neg Bool.false_ne_true]
    rw [hdrop, trim, trimBy, hdrop, List.reverse_concat, List.dropWhile_cons_of_pos (by decide),
      hlast, List.reverse_reverse]

/-- **A report is read back**: what a name looks like does not matter, since the last sign of
equality that a number follows is the report's own. -/
theorem reported?_reportLine (hn : IsName name) (n : Nat) :
    reported? (reportLine name n) = some (name, Nat.toDigits 10 n) := by
  have hdigits : (Number.integerText n).toList = Nat.toDigits 10 n := Nat.toList_repr
  have hline : reportLine name n = heading ++
      String.ofList (' ' :: (name.toList ++ [' '] ++ '=' :: ' ' :: Nat.toDigits 10 n)) := by
    refine String.toList_inj.mp ?_
    unfold reportLine
    simp only [String.toList_append, String.toList_ofList, hdigits, List.append_assoc]
    rfl
  have hbreak : '\n' ∉ name.toList ++ [' '] := by
    rw [List.mem_append]
    exact fun h => h.elim hn.oneLine (by decide)
  have hdecimal : ∀ c ∈ Nat.toDigits 10 n, isDecimalDigit c = true := by
    intro c hc
    rw [isDecimalDigit, Json.digitValue?_of_isDigit (Json.isDigit_toDigits n c hc)]
    rfl
  rw [hline, reported?_assignment hbreak hdecimal Nat.toDigits_ne_nil, hn.trim_eq,
    String.ofList_toList]

/-- What one report adds to the numbers found so far. -/
theorem addLine_report (hn : IsName name) (ht : Number.IsTellable n)
    (found : List (String × Int)) :
    addLine found (reportLine name n) = .ok (Json.put name (n : Int) found) := by
  have hdigit := Json.isDigit_toDigits n
  have hdecimal : ∀ c ∈ Nat.toDigits 10 n, isDecimalDigit c = true := by
    intro c hc
    rw [isDecimalDigit, Json.digitValue?_of_isDigit (hdigit c hc)]
    rfl
  have hvalue : Number.ofDigits ((Nat.toDigits 10 n).filterMap digitValue?) = n := by
    rw [Json.ofDigits_digitValues hdigit, Nat.ofDigitChars_ten_toDigits]
  have hlen : ¬ Number.maxDigits < (Nat.toDigits 10 n).length := Nat.not_lt.mpr ht.length_le
  unfold addLine
  rw [reported?_reportLine hn n]
  dsimp only
  rw [Number.readInteger_of_digits hdecimal Nat.toDigits_ne_nil, if_neg hlen, hvalue]

/-- A line that does not begin like a report adds nothing. -/
theorem addLine_other {text : String} (h : startsWith heading text = false)
    (found : List (String × Int)) : addLine found text = .ok found := by
  have hprefix : ¬ heading.toList.isPrefixOf text.toList = true := Bool.eq_false_iff.mp h
  have hnone : reported? text = none := by
    unfold reported?
    dsimp only
    rw [if_neg hprefix]
  unfold addLine
  rw [hnone]

/-! ## All lines -/

/-- A line of what a run prints. -/
inductive Line where
  | report (name : String) (n : Nat)
  | other (text : String)

namespace Line

def text : Line → String
  | report name n => reportLine name n
  | other text => text

/-- What the line reports. -/
def report? : Line → Option (String × Nat)
  | report name n => some (name, n)
  | other _ => none

/-- Reports have names and numbers that can be read back; no other line begins like a report. -/
def Proper : Line → Prop
  | report name n => IsName name ∧ Number.IsTellable n
  | other text => startsWith heading text = false

end Line

/-- The table has every name that is reported, in the order in which the names first occur, with the
last number that is reported under it. -/
structure Tallies (reports : List (String × Nat)) (table : List (String × Int)) : Prop where
  names : table.map Prod.fst = (reports.map Prod.fst).eraseDups
  numbers : ∀ name, table.lookup name =
    (reports.reverse.lookup name).map fun n => (n : Int)

theorem tallies_nil : Tallies [] [] where
  names := rfl
  numbers _ := rfl

/-- **One report more.** -/
theorem Tallies.concat {reports : List (String × Nat)} (ht : Tallies reports found)
    (name : String) (n : Nat) :
    Tallies (reports ++ [(name, n)]) (Json.put name (n : Int) found) where
  names := by
    rw [Json.map_fst_put, ht.names, List.map_append, List.map_singleton, List.eraseDups_append]
    by_cases hmem : name ∈ reports.map Prod.fst
    · have hold : [name].removeAll (reports.map Prod.fst) = [] := by simp [List.removeAll, hmem]
      rw [if_pos (List.mem_eraseDups.mpr hmem), hold, List.eraseDups_nil, List.append_nil]
    · have hnew : [name].removeAll (reports.map Prod.fst) = [name] := by simp [List.removeAll, hmem]
      rw [if_neg (mt List.mem_eraseDups.mp hmem), hnew]
      rfl
  numbers := by
    intro name'
    rw [List.reverse_concat, List.lookup_cons]
    by_cases h : name' = name
    · subst h
      rw [Json.lookup_put, beq_self_eq_true]
      rfl
    · rw [Json.lookup_put_of_ne h, ht.numbers, beq_false_of_ne h]

/-- The reports determine the table. -/
theorem Tallies.unique {reports : List (String × Nat)} {table table' : List (String × Int)}
    (h : Tallies reports table) (h' : Tallies reports table') : table = table' := by
  refine Json.eq_of_lookup (h.names.trans h'.names.symm) ?_ fun name => ?_
  · rw [h.names]
    exact nodup_eraseDups _
  · rw [h.numbers, h'.numbers]

/-- **Statistics are read back**, whatever stands between the lines that report them. -/
theorem parse_tallies (lines : List Line) (hl : ∀ line ∈ lines, line.Proper) :
    ∃ table, parse (lines.map Line.text) = .ok table ∧
      Tallies (lines.filterMap Line.report?) table := by
  induction lines using List.reverseRecOn with
  | nil => exact ⟨[], rfl, tallies_nil⟩
  | append_singleton lines line ih =>
    obtain ⟨table, hp, ht⟩ := ih fun l hmem => hl l (List.mem_append_left _ hmem)
    have hproper := hl line (List.mem_append_right _ List.mem_cons_self)
    have hparse : parse ((lines ++ [line]).map Line.text) = addLine table line.text := by
      unfold parse at hp ⊢
      rw [List.map_append, List.foldlM_append, hp]
      exact bind_pure (addLine table line.text)
    rw [hparse, List.filterMap_append]
    cases line with
    | report name n =>
      exact ⟨_, addLine_report hproper.1 hproper.2 table, ht.concat name n⟩
    | other text =>
      refine ⟨table, addLine_other hproper table, ?_⟩
      rwa [show [Line.other text].filterMap Line.report? = [] from rfl, List.append_nil]

/-- Names that look like reports, one of them twice, and one that is empty. -/
theorem parse_tallies_lookalikes :
    (∀ line ∈ [Line.report "a = 1" 2, .other "KLEE: output directory", .report "" 3,
      .report "a = 1" 4], line.Proper) ∧
      parse ["KLEE: done: a = 1 = 2", "KLEE: output directory", "KLEE: done:  = 3",
        "KLEE: done: a = 1 = 4"] = .ok [("a = 1", 4), ("", 3)] := by
  have hname : IsName "a = 1" := by
    have hfirst : "a = 1".toList.head? = some 'a' := by decide
    have hlast : "a = 1".toList.getLast? = some '1' := by decide
    refine ⟨by decide, fun c hc => ?_, fun c hc => ?_⟩
    · rw [← Option.some.inj (hfirst.symm.trans hc)]
      decide
    · rw [← Option.some.inj (hlast.symm.trans hc)]
      decide
  have hempty : IsName "" := ⟨List.not_mem_nil, nofun, nofun⟩
  have hl : ∀ line ∈ [Line.report "a = 1" 2, .other "KLEE: output directory", .report "" 3,
      .report "a = 1" 4], line.Proper := by
    have hother : startsWith heading "KLEE: output directory" = false := by decide
    simp only [List.forall_mem_cons]
    exact ⟨⟨hname, Number.isTellable_of_small (by decide)⟩, hother,
      ⟨hempty, Number.isTellable_of_small (by decide)⟩,
      ⟨hname, Number.isTellable_of_small (by decide)⟩, List.forall_mem_nil _⟩
  obtain ⟨table, hparse, htable⟩ := parse_tallies _ hl
  have hconcrete : Tallies [("a = 1", 2), ("", 3), ("a = 1", 4)] [("a = 1", 4), ("", 3)] :=
    ((tallies_nil.concat "a = 1" 2).concat "" 3).concat "a = 1" 4
  exact ⟨hl, htable.unique hconcrete ▸ hparse⟩

end Statistics

end Assay
