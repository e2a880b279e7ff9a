import Assay.Proofs.Integer
import Assay.Statistics

/-!
# When statistics can be read

Reading the statistics of a run fails in one case only: some line reports a number of more digits
than an integer may have. `parse_ok_iff` and `parse_eq_error` say so for all lines, through
`addLine_of_not_overlong` and `addLine_of_overlong` for one line.
-/

namespace Assay.Statistics

open Assay.Text

variable {line : String} {lines : List String} {found : List (String × Int)}

/-! ## One line -/

/-- The line reports a number that has too many digits. -/
def Overlong (line : String) : Prop :=
  ∃ name digits, reported? line = some (name, digits) ∧ Number.maxDigits < digits.length

/-- What stands after the sign of equality is a text of digits. -/
theorem lastAssignment?_digits {cs name digits : List Char}
    (h : lastAssignment? cs = some (name, digits)) :
    digits ≠ [] ∧ ∀ c ∈ digits, isDecimalDigit c = true := by
  induction cs generalizing name with
  | nil => cases h
  | cons c rest ih =>
    unfold lastAssignment? at h
    split at h
    case h_1 name' digits' hrest =>
      rw [Option.some.injEq, Prod.mk.injEq] at h
      obtain ⟨-, rfl⟩ := h
      exact ih hrest
    case h_2 =>
      split at h
      case isFalse => cases h
      case isTrue =>
        dsimp only at h
        split at h
        case isTrue => cases h
        case isFalse hne =>
          rw [Option.some.injEq, Prod.mk.injEq] at h
          obtain ⟨-, rfl⟩ := h
          refine ⟨fun hnil => hne (List.isEmpty_iff.mpr hnil), fun c hc => ?_⟩
          exact List.mem_takeWhile_imp hc

theorem reported?_digits {name : String} {digits : List Char}
    (h : reported? line = some (name, digits)) :
    digits ≠ [] ∧ ∀ c ∈ digits, isDecimalDigit c = true := by
  unfold reported? at h
  dsimp only at h
  split at h
  case isFalse => cases h
  case isTrue =>
    split at h
    case isTrue => cases h
    case isFalse =>
      rw [Option.map_eq_some_iff] at h
      obtain ⟨⟨body, ds⟩, hlast, heq⟩ := h
      rw [Prod.mk.injEq] at heq
      obtain ⟨-, rfl⟩ := heq
      exact lastAssignment?_digits hlast

theorem lastAssignment?_of_digits {ds : List Char} (hd : ∀ c ∈ ds, isDecimalDigit c = true) :
    lastAssignment? ds = none := by
  have heq : isDecimalDigit '=' = false := by decide
  induction ds with
  | nil => rfl
  | cons c ds ih =>
    have hc := isDecimalDigit_ne (hd c List.mem_cons_self) heq
    rw [lastAssignment?, ih fun d hmem => hd d (List.mem_cons_of_mem c hmem)]
    simp [hc]

/-- Digits at the very end are assigned to all that stands before. -/
theorem lastAssignment?_append {ds : List Char} (hd : ∀ c ∈ ds, isDecimalDigit c = true)
    (hne : ds ≠ []) (name : List Char) :
    lastAssignment? (name ++ '=' :: ' ' :: ds) = some (name, ds) := by
  induction name with
  | nil =>
    have hspace : lastAssignment? (' ' :: ds) = none := by
      rw [lastAssignment?, lastAssignment?_of_digits hd]
      rfl
    have htake : ds.takeWhile isDecimalDigit = ds := List.takeWhile_eq_self_iff.mpr hd
    rw [List.nil_append, lastAssignment?, hspace]
    simp [htake, hne]
  | cons c name ih =>
    rw [List.cons_append, lastAssignment?, ih]

/-- A line that ends with a number reports it, whatever it is called. -/
theorem reported?_assignment {name ds : List Char} (hname : '\n' ∉ name)
    (hd : ∀ c ∈ ds, isDecimalDigit c = true) (hne : ds ≠ []) :
    reported? (heading ++ String.ofList (' ' :: (name ++ '=' :: ' ' :: ds))) =
      some (String.ofList (trim (name.dropWhile isBlank)), ds) := by
  have hbreak : ∀ c ∈ ' ' :: (name ++ '=' :: ' ' :: ds), (c != '\n') = true := by
    intro c hc
    rw [bne_iff_ne]
    simp only [List.mem_append, List.mem_cons] at hc
    rcases hc with rfl | hc | rfl | rfl | hc
    · decide
    · rintro rfl
      exact hname hc
    · decide
    · decide
    · exact isDecimalDigit_ne (hd c hc) (by decide)
  have hbody : (' ' :: (name ++ '=' :: ' ' :: ds)).dropWhile isBlank =
      name.dropWhile isBlank ++ '=' :: ' ' :: ds := by
    rw [List.dropWhile_cons_of_pos (by decide), List.dropWhile_append]
    split
    case isTrue hnil =>
      rw [List.isEmpty_iff.mp hnil, List.dropWhile_cons_of_neg (by decide), List.nil_append]
    case isFalse => rfl
  have htake : (name.dropWhile isBlank ++ '=' :: ' ' :: ds).takeWhile (· != '\n') =
      name.dropWhile isBlank ++ '=' :: ' ' :: ds := by
    rw [List.takeWhile_eq_self_iff, ← hbody]
    exact fun c hc => hbreak c ((List.dropWhile_sublist isBlank).subset hc)
  have hlen : (name.dropWhile isBlank ++ '=' :: ' ' :: ds).length ≠
      (' ' :: (name ++ '=' :: ' ' :: ds)).length := by
    have := (List.dropWhile_sublist isBlank (l := name)).length_le
    simp only [List.length_append, List.length_cons]
    omega
  have hprefix : heading.toList.isPrefixOf (heading.toList ++ ' ' :: (name ++ '=' :: ' ' :: ds)) =
      true := by
    rw [List.isPrefixOf_iff_prefix]
    exact List.prefix_append _ _
  unfold reported?
  rw [String.toList_append, String.toList_ofList]
  dsimp only
  rw [if_pos hprefix, List.drop_left, hbody, if_neg hlen, htake, lastAssignment?_append hd hne]
  rfl

/-- A line that ends with a number of too many digits. -/
theorem overlong_assignment {name ds : List Char} (hname : '\n' ∉ name)
    (hd : ∀ c ∈ ds, isDecimalDigit c = true) (hlen : Number.maxDigits < ds.length) :
    Overlong (heading ++ String.ofList (' ' :: (name ++ '=' :: ' ' :: ds))) := by
  have hne : ds ≠ [] := by
    rintro rfl
    exact absurd hlen (Nat.not_lt_zero _)
  exact ⟨_, ds, reported?_assignment hname hd hne, hlen⟩

theorem addLine_of_not_overlong (h : ¬ Overlong line) (found : List (String × Int)) :
    ∃ found', addLine found line = .ok found' := by
  unfold addLine
  cases hr : reported? line with
  | none => exact ⟨found, rfl⟩
  | some p =>
    obtain ⟨name, digits⟩ := p
    obtain ⟨hne, hd⟩ := reported?_digits hr
    have hlen : ¬ Number.maxDigits < digits.length := fun hlt => h ⟨name, digits, hr, hlt⟩
    dsimp only
    rw [Number.readInteger_of_digits hd hne, if_neg hlen]
    exact ⟨_, rfl⟩

theorem addLine_of_overlong (h : Overlong line) (found : List (String × Int)) :
    ∃ count, addLine found line = .error (.tooManyDigits count) := by
  obtain ⟨name, digits, hr, hlen⟩ := h
  obtain ⟨hne, hd⟩ := reported?_digits hr
  unfold addLine
  rw [hr]
  dsimp only
  rw [Number.readInteger_of_digits hd hne, if_pos hlen]
  exact ⟨_, rfl⟩

/-! ## All lines -/

theorem foldlM_addLine_cons (found : List (String × Int)) (line : String) (lines : List String) :
    (line :: lines).foldlM addLine found =
      (addLine found line).bind fun found' => lines.foldlM addLine found' :=
  List.foldlM_cons

theorem foldlM_addLine_ok (h : ∀ line ∈ lines, ¬ Overlong line) :
    ∃ stats, lines.foldlM addLine found = .ok stats := by
  induction lines generalizing found with
  | nil => exact ⟨found, rfl⟩
  | cons line lines ih =>
    obtain ⟨found', hf⟩ := addLine_of_not_overlong (h line List.mem_cons_self) found
    rw [foldlM_addLine_cons, hf]
    exact ih fun l hl => h l (List.mem_cons_of_mem line hl)

theorem foldlM_addLine_error (h : ∃ line ∈ lines, Overlong line) :
    ∃ count, lines.foldlM addLine found = .error (.tooManyDigits count) := by
  induction lines generalizing found with
  | nil =>
    obtain ⟨line, hmem, -⟩ := h
    cases hmem
  | cons line lines ih =>
    rw [foldlM_addLine_cons]
    by_cases hline : Overlong line
    · obtain ⟨count, hc⟩ := addLine_of_overlong hline found
      exact ⟨count, by rw [hc]; rfl⟩
    · obtain ⟨found', hf⟩ := addLine_of_not_overlong hline found
      obtain ⟨l, hmem, hl⟩ := h
      rcases List.mem_cons.mp hmem with rfl | hmem
      · exact absurd hl hline
      · rw [hf]
        exact ih ⟨l, hmem, hl⟩

theorem parse_eq_ok (h : ∀ line ∈ lines, ¬ Overlong line) : ∃ stats, parse lines = .ok stats :=
  foldlM_addLine_ok h

theorem parse_eq_error (h : ∃ line ∈ lines, Overlong line) :
    ∃ count, parse lines = .error (.tooManyDigits count) :=
  foldlM_addLine_error h

/-- **Statistics can be read** unless some line reports a number that has too many digits. -/
theorem parse_ok_iff : (∃ stats, parse lines = .ok stats) ↔ ∀ line ∈ lines, ¬ Overlong line := by
  refine ⟨?_, parse_eq_ok⟩
  rintro ⟨stats, hok⟩ line hmem hline
  obtain ⟨count, herr⟩ := parse_eq_error ⟨line, hmem, hline⟩
  rw [hok] at herr
  cases herr

end Assay.Statistics
