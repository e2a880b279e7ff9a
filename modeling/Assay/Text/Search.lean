/-!
# Finding and cutting text

Tests for a text at the start, at the end and inside of another, and the cutting of a text at
separator characters and joining of texts with a separator. `isInfix_iff` states the third test
through `List.IsInfix`; the first two are the library's own tests on lists.
-/

namespace Assay.Text

/-- Whether `p` occurs somewhere in the list. -/
def isInfix {α : Type} [DecidableEq α] (p : List α) : List α → Bool
  | [] => p.isEmpty
  | c :: rest => p.isPrefixOf (c :: rest) || isInfix p rest

def startsWith (p s : String) : Bool :=
  p.toList.isPrefixOf s.toList

def endsWith (p s : String) : Bool :=
  p.toList.isSuffixOf s.toList

def contains (p s : String) : Bool :=
  isInfix p.toList s.toList

/-- The fields between separators, empty ones included; a text without separators is one field. -/
def splitBy (p : Char → Bool) : List Char → List (List Char)
  | [] => [[]]
  | c :: rest =>
    if p c then [] :: splitBy p rest
    else
      match splitBy p rest with
      | [] => [[c]]
      | field :: fields => (c :: field) :: fields

/-- The non-empty fields between separators. -/
def pieces (p : Char → Bool) (s : String) : List String :=
  ((splitBy p s.toList).filter fun f => !f.isEmpty).map String.ofList

/-- The texts in order with `sep` between neighbours. -/
def joinWith (sep : String) (parts : List String) : String :=
  String.ofList (sep.toList.intercalate (parts.map String.toList))

theorem toList_joinWith (sep : String) (parts : List String) :
    (joinWith sep parts).toList = sep.toList.intercalate (parts.map String.toList) := by
  unfold joinWith
  rw [String.toList_ofList]

theorem isInfix_iff {α : Type} [DecidableEq α] {p s : List α} : isInfix p s = true ↔ p <:+: s := by
  induction s with
  | nil => simp [isInfix]
  | cons c rest ih =>
    simp only [isInfix, Bool.or_eq_true, List.isPrefixOf_iff_prefix, ih, List.infix_cons_iff]

theorem startsWith_iff {p s : String} : startsWith p s = true ↔ p.toList <+: s.toList := by
  simp [startsWith]

theorem endsWith_iff {p s : String} : endsWith p s = true ↔ p.toList <:+ s.toList := by
  simp [endsWith]

theorem contains_iff {p s : String} : contains p s = true ↔ p.toList <:+: s.toList :=
  isInfix_iff

theorem splitBy_ne_nil (p : Char → Bool) (s : List Char) : splitBy p s ≠ [] := by
  cases s with
  | nil => simp [splitBy]
  | cons c rest =>
    unfold splitBy
    split
    · simp
    · split <;> simp

end Assay.Text
