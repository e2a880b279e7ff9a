import Assay.Number.Integer
import Mathlib.Data.List.TakeWhile

/-!
# Runs of digits

What reading an integer makes of a text of digits alone, in whatever script: the number they denote,
unless they are too many. `readInteger_of_digits` rests on digits being none of the other characters
that the notation knows: no blank, no sign and no underscore.
-/

namespace Assay

namespace Text

variable {c : Char}

/-- The blanks beyond ASCII, as ranges of code points. -/
def wideBlanks : List Range :=
  [(0x85, 0x85), (0xA0, 0xA0), (0x1680, 0x1680), (0x2000, 0x200A), (0x2028, 0x2029),
    (0x202F, 0x202F), (0x205F, 0x205F), (0x3000, 0x3000)]

theorem wideBlanks_apart :
    ∀ r ∈ wideBlanks, ∀ z ∈ digitZeros, z + 10 ≤ r.1 ∨ r.2 < z := by
  decide

theorem anyMem_wideBlanks (hb : isBlank c = true) (hc : 127 ≤ c.toNat) :
    Range.anyMem wideBlanks c.toNat = true := by
  simp only [isBlank, Bool.or_eq_true, Bool.and_eq_true, decide_eq_true_eq, beq_iff_eq] at hb
  simp only [wideBlanks, Range.anyMem, Range.mem, List.any_cons, List.any_nil, Bool.or_eq_true,
    Bool.and_eq_true, decide_eq_true_eq]
  omega

/-- A digit is a digit of ASCII, or lies in the ten places from a zero on. -/
theorem isDecimalDigit_cases (hd : isDecimalDigit c = true) :
    (48 ≤ c.toNat ∧ c.toNat ≤ 57) ∨
      (128 ≤ c.toNat ∧ ∃ z ∈ digitZeros, z ≤ c.toNat ∧ c.toNat < z + 10) := by
  unfold isDecimalDigit digitValue? at hd
  split at hd
  case isTrue h =>
    left
    split at hd
    case isTrue hdigit =>
      simp only [Char.isDigit, Bool.and_eq_true, decide_eq_true_eq] at hdigit
      exact hdigit
    case isFalse => cases hd
  case isFalse h =>
    right
    rw [Option.isSome_map, List.find?_isSome] at hd
    obtain ⟨z, hz, hin⟩ := hd
    rw [Bool.and_eq_true, decide_eq_true_eq, decide_eq_true_eq] at hin
    exact ⟨by omega, z, hz, hin⟩

theorem isBlank_of_isDecimalDigit (hd : isDecimalDigit c = true) : isBlank c = false := by
  rw [Bool.eq_false_iff]
  intro hb
  rcases isDecimalDigit_cases hd with h | ⟨h, z, hz, hin⟩
  · simp only [isBlank, Bool.or_eq_true, Bool.and_eq_true, decide_eq_true_eq, beq_iff_eq] at hb
    omega
  · obtain ⟨r, hr, hrc⟩ := Range.anyMem_iff.mp (anyMem_wideBlanks hb (by omega))
    have := wideBlanks_apart r hr z hz
    omega

theorem isDecimalDigit_ne {d : Char} (hd : isDecimalDigit c = true)
    (hn : isDecimalDigit d = false) : c ≠ d := by
  rintro rfl
  rw [hd] at hn
  cases hn

end Text

namespace Number

open Text

variable {c : Char} {ds : List Char}

theorem isNumberBlank_of_isDecimalDigit (hd : isDecimalDigit c = true) :
    isNumberBlank c = false := by
  have hb := isBlank_of_isDecimalDigit hd
  have ha : isAsciiBlank c = false := by
    simp only [isBlank, isAsciiBlank, Bool.or_eq_false_iff, Bool.and_eq_false_iff,
      decide_eq_false_iff_not, beq_eq_false_iff_ne] at hb ⊢
    omega
  rw [isNumberBlank, ha, hb, Bool.and_false, Bool.or_false]

theorem splitSign_of_digits (hd : ∀ c ∈ ds, isDecimalDigit c = true) :
    splitSign ds = (false, ds) := by
  have hplus : isDecimalDigit '+' = false := by decide
  have hminus : isDecimalDigit '-' = false := by decide
  unfold splitSign
  split
  · exact absurd rfl (isDecimalDigit_ne (hd _ List.mem_cons_self) hminus)
  · exact absurd rfl (isDecimalDigit_ne (hd _ List.mem_cons_self) hplus)
  · rfl

theorem underscoresFit_of_digits (hd : ∀ c ∈ ds, isDecimalDigit c = true) :
    underscoresFit ds = true := by
  have hbar : isDecimalDigit '_' = false := by decide
  induction ds with
  | nil => rfl
  | cons c ds ih =>
    have hc := isDecimalDigit_ne (hd c List.mem_cons_self) hbar
    rw [underscoresFit]
    · exact ih fun d hmem => hd d (List.mem_cons_of_mem c hmem)
    · rintro rfl -
      exact hc rfl
    · rintro rest rfl -
      exact hc rfl

/-- **A text of digits** denotes their number, and is refused only for their count. -/
theorem readInteger_of_digits (hd : ∀ c ∈ ds, isDecimalDigit c = true) (hne : ds ≠ []) :
    readInteger ds =
      if maxDigits < ds.length then .error (.tooManyDigits ds.length)
      else .ok (ofDigits (ds.filterMap digitValue?)) := by
  have hrun : ∀ c ∈ ds, isDigitOrUnderscore c = true := by
    intro c hc
    rw [isDigitOrUnderscore, hd c hc, Bool.true_or]
  have hhead : ds.head? ≠ some '_' := by
    intro h
    have := hd '_' (List.mem_of_mem_head? h)
    exact absurd this (by decide)
  have hblank : ds.dropWhile isNumberBlank = ds := by
    rw [List.dropWhile_eq_self_iff]
    intro hlen
    rw [isNumberBlank_of_isDecimalDigit (hd _ (List.getElem_mem hlen))]
    exact Bool.false_ne_true
  have htake : ds.takeWhile isDigitOrUnderscore = ds := List.takeWhile_eq_self_iff.mpr hrun
  have hdrop : ds.dropWhile isDigitOrUnderscore = [] := List.dropWhile_eq_nil_iff.mpr hrun
  have hfilter : ds.filter isDecimalDigit = ds := List.filter_eq_self.mpr hd
  have hempty : ds.isEmpty = false := List.isEmpty_eq_false_iff.mpr hne
  simp only [readInteger, hblank, splitSign_of_digits hd, htake, hdrop, hfilter, hhead,
    underscoresFit_of_digits hd, hempty, List.all_nil, signed]
  simp

end Number

end Assay
