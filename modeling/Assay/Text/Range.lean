/-!
# Ranges of code points

Character classes that follow no short rule are given as lists of closed ranges.
-/

namespace Assay.Text

/-- A closed range of code points. -/
abbrev Range := Nat × Nat

def Range.mem (r : Range) (n : Nat) : Bool :=
  r.1 ≤ n && n ≤ r.2

/-- Whether some range of the list holds `n`. -/
def Range.anyMem (rs : List Range) (n : Nat) : Bool :=
  rs.any fun r => Range.mem r n

theorem Range.anyMem_iff {rs : List Range} {n : Nat} :
    Range.anyMem rs n = true ↔ ∃ r ∈ rs, r.1 ≤ n ∧ n ≤ r.2 := by
  simp [Range.anyMem, Range.mem]

end Assay.Text
