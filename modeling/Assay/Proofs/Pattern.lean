import Assay.Counterexample
import Assay.Proofs.Path
import Mathlib.Data.List.Infix

/-!
# Patterns

What the shell calls a pattern: `*` stands for any text, `?` for any character, brackets for one
character of a set, and all else for itself. Reading a pattern, `read`, gives its pieces, and
`standFor` says which texts they stand for.

A text is escaped by putting every wildcard character in brackets of its own. `isMatch_escape_iff`:
an escaped text stands for itself alone.
-/

namespace Assay.Pattern

open Assay.Counterexample (isWildcard)

/-! ## Reading and matching -/

inductive Piece where
  | plain (c : Char)
  | one
  | many
  /-- One character that is among the members of a set, or, for an inverted set, not among them. -/
  | oneOf (inverted : Bool) (members : List Char)

/-- What a set has between its brackets are characters and ranges of characters. -/
def isMember (c : Char) : List Char → Bool
  | low :: '-' :: high :: rest => decide (low ≤ c ∧ c ≤ high) || isMember c rest
  | member :: rest => member == c || isMember c rest
  | [] => false

/-- The set that a bracket opens, and what stands behind it. A bracket that closes the set is not
the first thing in it; without one there is no set. -/
def set? (cs : List Char) : Option (Piece × List Char) :=
  let inverted := cs.head? == some '!'
  match if inverted then cs.tail else cs with
  | [] => none
  | first :: rest =>
    match rest.dropWhile (· != ']') with
    | [] => none
    | _ :: behind => some (.oneOf inverted (first :: rest.takeWhile (· != ']')), behind)

theorem length_lt_of_set? {cs behind : List Char} {piece : Piece}
    (h : set? cs = some (piece, behind)) : behind.length < cs.length := by
  unfold set? at h
  dsimp only at h
  split at h
  case h_1 => cases h
  case h_2 first rest hcs =>
    have hle : (first :: rest).length ≤ cs.length := by
      rw [← hcs]
      split
      · exact (List.length_tail ▸ Nat.sub_le _ _)
      · exact Nat.le_refl _
    split at h
    case h_1 => cases h
    case h_2 c after hdrop =>
      cases h
      have hdropped := (List.dropWhile_suffix (l := rest) (· != ']')).length_le
      rw [hdrop, List.length_cons] at hdropped
      rw [List.length_cons] at hle
      omega

/-- The pieces of a pattern. -/
def read (cs : List Char) : List Piece :=
  match cs with
  | [] => []
  | c :: rest =>
    if c = '*' then .many :: read rest
    else if c = '?' then .one :: read rest
    else if c = '[' then
      match h : set? rest with
      | some (piece, behind) =>
        have := length_lt_of_set? h
        piece :: read behind
      | none => .plain c :: read rest
    else .plain c :: read rest
termination_by cs.length

/-- The characters that a piece stands for, if it stands for one. -/
def Piece.admits : Piece → Char → Bool
  | plain a, c => a == c
  | oneOf inverted members, c => isMember c members != inverted
  | _, _ => true

/-- Whether the pieces, one after the other, stand for the text. -/
def standFor : List Piece → List Char → Bool
  | [], cs => cs.isEmpty
  | .many :: pieces, cs => cs.tails.any (standFor pieces)
  | _ :: _, [] => false
  | piece :: pieces, c :: cs => piece.admits c && standFor pieces cs

/-- Whether a pattern stands for a text. -/
def isMatch (pattern text : String) : Bool :=
  standFor (read pattern.toList) text.toList

/-! ## Escaping -/

def escapeChar (c : Char) : List Char :=
  if isWildcard c then ['[', c, ']'] else [c]

/-- The pattern for a text. -/
def escape (text : String) : String :=
  String.ofList (text.toList.flatMap escapeChar)

/-- The piece that a character is read as after escaping. -/
def exactly (c : Char) : Piece :=
  if isWildcard c then .oneOf false [c] else .plain c

variable {c : Char} {cs ts head tail : List Char} {pieces : List Piece} {s t : String}

theorem not_isWildcard (h : isWildcard c = false) : c ≠ '*' ∧ c ≠ '?' ∧ c ≠ '[' := by
  simpa [isWildcard, and_assoc] using h

theorem read_star (rest : List Char) : read ('*' :: rest) = .many :: read rest := by
  rw [read, if_pos rfl]

/-- A character that is no wildcard is read as itself. -/
theorem read_plain (h : isWildcard c = false) (rest : List Char) :
    read (c :: rest) = .plain c :: read rest := by
  obtain ⟨hstar, hone, hopen⟩ := not_isWildcard h
  rw [read, if_neg hstar, if_neg hone, if_neg hopen]

/-- One character in brackets is read as a set with that member. -/
theorem read_bracket (h : isWildcard c = true) (rest : List Char) :
    read ('[' :: c :: ']' :: rest) = .oneOf false [c] :: read rest := by
  have hset : set? (c :: ']' :: rest) = some (.oneOf false [c], rest) := by
    have hinverted : (some c == some '!') = false := by
      rw [beq_eq_false_iff_ne, ne_eq, Option.some.injEq]
      rintro rfl
      cases h
    unfold set?
    rw [List.head?_cons, hinverted]
    rfl
  rw [read, if_neg (by decide), if_neg (by decide), if_pos rfl]
  split
  case h_1 piece behind hsome =>
    rw [hset] at hsome
    cases hsome
    rfl
  case h_2 hnone =>
    rw [hset] at hnone
    cases hnone

theorem read_escapeChar (c : Char) (rest : List Char) :
    read (escapeChar c ++ rest) = exactly c :: read rest := by
  unfold escapeChar exactly
  cases h : isWildcard c with
  | true => exact read_bracket h rest
  | false => exact read_plain h rest

/-- **Escaped characters are read as themselves**, whatever follows. -/
theorem read_escaped (rest : List Char) : ∀ cs : List Char,
    read (cs.flatMap escapeChar ++ rest) = cs.map exactly ++ read rest
  | [] => rfl
  | c :: cs => by
    rw [List.flatMap_cons, List.append_assoc, read_escapeChar, read_escaped rest cs, List.map_cons,
      List.cons_append]

theorem admits_exactly (a : Char) : (exactly a).admits c = (a == c) := by
  unfold exactly
  split
  · simp [Piece.admits, isMember]
  · rfl

theorem standFor_exactly (a : Char) (pieces : List Piece) :
    standFor (exactly a :: pieces) (c :: cs) = (a == c && standFor pieces cs) := by
  rw [← admits_exactly]
  unfold exactly
  split <;> rfl

theorem standFor_exactly_nil (a : Char) (pieces : List Piece) :
    standFor (exactly a :: pieces) [] = false := by
  unfold exactly
  split <;> rfl

/-- Pieces that stand for themselves stand at the beginning. -/
theorem standFor_append_iff : ∀ cs ts : List Char,
    standFor (cs.map exactly ++ pieces) ts = true ↔
      ∃ rest, ts = cs ++ rest ∧ standFor pieces rest = true
  | [], ts => by simp
  | a :: cs, [] => by
    rw [List.map_cons, List.cons_append, standFor_exactly_nil]
    simp
  | a :: cs, c :: ts => by
    rw [List.map_cons, List.cons_append, standFor_exactly, Bool.and_eq_true, beq_iff_eq,
      standFor_append_iff cs ts]
    constructor
    · rintro ⟨rfl, rest, rfl, hrest⟩
      exact ⟨rest, rfl, hrest⟩
    · rintro ⟨rest, hts, hrest⟩
      obtain ⟨rfl, rfl⟩ := List.cons.inj hts
      exact ⟨rfl, rest, rfl, hrest⟩

theorem standFor_map_exactly_iff : standFor (cs.map exactly) ts = true ↔ ts = cs := by
  have happend : standFor (cs.map exactly ++ []) ts = true ↔
      ∃ rest, ts = cs ++ rest ∧ standFor [] rest = true := standFor_append_iff cs ts
  rw [List.append_nil] at happend
  rw [happend]
  constructor
  · rintro ⟨rest, rfl, hrest⟩
    rw [List.isEmpty_iff.mp hrest, List.append_nil]
  · rintro rfl
    exact ⟨[], (List.append_nil _).symm, rfl⟩

/-- **An escaped text stands for itself** and for nothing else. -/
theorem isMatch_escape_iff : isMatch (escape s) t = true ↔ t = s := by
  have hread : read (s.toList.flatMap escapeChar) = s.toList.map exactly := by
    have h := read_escaped [] s.toList
    rwa [List.append_nil, read, List.append_nil] at h
  unfold isMatch escape
  rw [String.toList_ofList, hread, standFor_map_exactly_iff, String.toList_inj]

/-! ## Texts without wildcards -/

/-- There is no wildcard character in it. -/
def isPlain (s : String) : Bool :=
  !s.toList.any isWildcard

theorem flatMap_escapeChar (h : cs.any isWildcard = false) : cs.flatMap escapeChar = cs := by
  induction cs with
  | nil => rfl
  | cons c cs ih =>
    rw [List.any_cons, Bool.or_eq_false_iff] at h
    rw [List.flatMap_cons, ih h.2, escapeChar, h.1]
    rfl

/-- What is plain is its own pattern. -/
theorem escape_of_plain (h : isPlain s = true) : escape s = s := by
  rw [isPlain, Bool.not_eq_true'] at h
  unfold escape
  rw [flatMap_escapeChar h, String.ofList_toList]

/-- Escaping leaves the wildcards in. -/
@[simp] theorem isPlain_escape (s : String) : isPlain (escape s) = isPlain s := by
  have hchar : (fun c => (escapeChar c).any isWildcard) = isWildcard := by
    funext c
    unfold escapeChar
    cases h : isWildcard c with
    | true =>
      rw [if_pos rfl]
      rfl
    | false =>
      rw [if_neg Bool.false_ne_true]
      simpa using h
  unfold isPlain escape
  rw [String.toList_ofList, List.any_flatMap, hchar]

/-! ## One wildcard -/

/-- The pattern for the texts that begin and end so. -/
def between (head tail : String) : String :=
  head ++ "*" ++ tail

theorem isPlain_between (head tail : String) : isPlain (between head tail) = false := by
  unfold isPlain between
  rw [String.toList_append, String.toList_append, List.any_append, List.any_append]
  simp [isWildcard]

theorem standFor_many_iff : standFor (.many :: cs.map exactly) ts = true ↔ cs <:+ ts := by
  rw [standFor, List.any_eq_true]
  constructor
  · rintro ⟨tail, htail, hmatch⟩
    rw [← standFor_map_exactly_iff.mp hmatch]
    exact (List.mem_tails _ _).mp htail
  · intro hsuffix
    exact ⟨cs, (List.mem_tails _ _).mpr hsuffix, standFor_map_exactly_iff.mpr rfl⟩

/-- A beginning and an end with no character in common do not overlap. -/
theorem suffix_of_disjoint (hc : tail.head? = some c) (hne : c ∉ head) {rest : List Char}
    (h : tail <:+ head ++ rest) : tail <:+ rest := by
  obtain ⟨before, heq⟩ := h
  rcases List.append_eq_append_iff.mp heq with ⟨more, hhead, htail⟩ | ⟨more, -, hrest⟩
  · cases more with
    | nil => exact htail ▸ List.suffix_rfl
    | cons a more =>
      rw [htail] at hc
      cases hc
      exact absurd (hhead ▸ List.mem_append_right before List.mem_cons_self) hne
  · exact ⟨more, hrest.symm⟩

/-- **One wildcard**: the texts that begin and end so. -/
theorem isMatch_between_iff {head tail : String} (hhead : isPlain head = true)
    (htail : isPlain tail = true) (hc : tail.toList.head? = some c) (hne : c ∉ head.toList) :
    isMatch (between head tail) t = true ↔
      Text.startsWith head t = true ∧ Text.endsWith tail t = true := by
  rw [isPlain, Bool.not_eq_true'] at hhead htail
  have hrest : read tail.toList = tail.toList.map exactly := by
    have h := read_escaped [] tail.toList
    rwa [List.append_nil, read, List.append_nil, flatMap_escapeChar htail] at h
  have hread : read (between head tail).toList =
      head.toList.map exactly ++ .many :: tail.toList.map exactly := by
    have h := read_escaped ('*' :: tail.toList) head.toList
    rw [flatMap_escapeChar hhead, read_star, hrest] at h
    rw [← h, between, String.toList_append, String.toList_append, List.append_assoc]
    rfl
  unfold isMatch
  rw [hread, standFor_append_iff, Text.startsWith_iff, Text.endsWith_iff]
  constructor
  · rintro ⟨rest, heq, hmatch⟩
    rw [heq]
    exact ⟨List.prefix_append _ rest,
      (standFor_many_iff.mp hmatch).trans (List.suffix_append _ rest)⟩
  · rintro ⟨⟨rest, heq⟩, hsuffix⟩
    rw [← heq] at hsuffix
    exact ⟨rest, heq.symm, standFor_many_iff.mpr (suffix_of_disjoint hc hne hsuffix)⟩

end Assay.Pattern
