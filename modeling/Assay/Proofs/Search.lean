import Assay.Proofs.Descent
import Assay.Proofs.Pattern

/-!
# Searching a disk

A path of patterns is searched for component by component. What stands before the first component
with a wildcard is taken as it is. From there on a component with a wildcard is compared with the
names in the directory, and one without is looked up. Names that begin with a dot are found only by
patterns that begin with one, and whatever has to lead on must be a directory.

`search_escaped`: if the path of a directory is escaped, and only then joined with a pattern for
names, the search finds what is in that directory under such names, and nothing else. No character
of the directory's own path matters.
-/

namespace Assay

/-! ## The text of an escaped path -/

namespace Path

variable {p : Path} {part : String}

/-- The patterns for the components. -/
def escaped (p : Path) : Path :=
  ⟨p.anchor, p.parts.map Pattern.escape⟩

theorem IsPart.escape (hn : IsPart part) : IsPart (Pattern.escape part) := by
  obtain ⟨hne, hdot, hslash⟩ := hn
  have hplain := Pattern.isPlain_escape part
  refine ⟨fun h => ?_, fun h => ?_, fun h => ?_⟩
  · rw [h] at hplain
    exact hne ((Pattern.escape_of_plain hplain.symm).symm.trans h)
  · rw [h] at hplain
    exact hdot ((Pattern.escape_of_plain hplain.symm).symm.trans h)
  · rw [Pattern.escape, String.toList_ofList, List.mem_flatMap] at h
    obtain ⟨c, hc, hslash'⟩ := h
    unfold Pattern.escapeChar at hslash'
    split at hslash'
    · simp only [List.mem_cons, List.not_mem_nil, or_false] at hslash'
      rcases hslash' with h | h | h
      · exact absurd h (by decide)
      · exact hslash (h ▸ hc)
      · exact absurd h (by decide)
    · exact hslash (List.mem_singleton.mp hslash' ▸ hc)

theorem Proper.escaped (hp : p.Proper) : p.escaped.Proper := by
  intro part hpart
  obtain ⟨part', hpart', rfl⟩ := List.mem_map.mp hpart
  exact (hp part' hpart').escape

/-- Separators stay when the fields between them are escaped. -/
theorem flatMap_intercalate : ∀ fields : List (List Char),
    (['/'].intercalate fields).flatMap Pattern.escapeChar =
      ['/'].intercalate (fields.map (·.flatMap Pattern.escapeChar))
  | [] => rfl
  | [f] => by simp
  | f :: g :: fields => by
    have ih := flatMap_intercalate (g :: fields)
    rw [List.map_cons] at ih
    rw [List.intercalate_cons_cons, List.flatMap_append, List.flatMap_append, ih, List.map_cons,
      List.map_cons, List.intercalate_cons_cons]
    rfl

/-- Escaping the text of a path escapes its components. -/
theorem escape_text (hne : p.parts ≠ []) : Pattern.escape p.text = p.escaped.text := by
  have hne' : p.escaped.parts ≠ [] := by rwa [escaped, ne_eq, List.map_eq_nil_iff]
  have hanchor : p.anchor.text.toList.flatMap Pattern.escapeChar = p.anchor.text.toList := by
    cases p.anchor <;> decide
  have hfields : (p.parts.map String.toList).map (·.flatMap Pattern.escapeChar) =
      p.escaped.parts.map String.toList := by
    rw [escaped, List.map_map, List.map_map]
    exact List.map_congr_left fun s _ => String.toList_ofList.symm
  refine String.toList_inj.mp ?_
  rw [Pattern.escape, String.toList_ofList, text_toList (.inr hne), text_toList (.inr hne'),
    List.flatMap_append, hanchor, flatMap_intercalate, hfields]
  rfl

/-- What the escaped text of a path is read as. -/
theorem parse_escape (hp : p.Proper) : parse (Pattern.escape p.text) = p.escaped := by
  by_cases hne : p.parts = []
  · obtain ⟨anchor, parts⟩ := p
    cases hne
    cases anchor <;> decide
  · rw [escape_text hne, parse_text hp.escaped (by rwa [escaped, ne_eq, List.map_eq_nil_iff])]

end Path

/-! ## The search -/

namespace Disk

/-- The names in the directory at a path; no path of the operating system holds a null character. -/
def contents (d : Disk) (p : Path) : List String :=
  if hasNull p.text then [] else d.list p.text

def isThere (d : Disk) (p : Path) : Bool :=
  match d.look .itself p.text with
  | .ok (some _) => true
  | _ => false

def leadsOn (d : Disk) (p : Path) : Bool :=
  match d.isDirectory? p.text with
  | .ok there => there
  | .error _ => false

def isHidden (name : String) : Bool :=
  name.toList.head? == some '.'

/-- The names in a directory that a pattern stands for. -/
def matched (d : Disk) (dir : Path) (pattern : String) : List String :=
  (d.contents dir).filter fun n => (isHidden pattern || !isHidden n) && Pattern.isMatch pattern n

/-- What one component stands for in a directory. -/
def expand (d : Disk) (isLast : Bool) (dir : Path) (pattern : String) : List Path :=
  if Pattern.isPlain pattern then [dir.child pattern].filter d.isThere
  else ((d.matched dir pattern).map dir.child).filter fun p => isLast || d.leadsOn p

/-- What further components lead to from a directory. -/
def searchFrom (d : Disk) (dir : Path) : List String → List Path
  | [] => [dir]
  | pattern :: rest => (d.expand rest.isEmpty dir pattern).flatMap fun p => d.searchFrom p rest

/-- What the patterns of a path stand for. -/
def search (d : Disk) (pattern : Path) : List Path :=
  match pattern.parts.dropWhile Pattern.isPlain with
  | [] => [pattern].filter d.isThere
  | rest => d.searchFrom ⟨pattern.anchor, pattern.parts.takeWhile Pattern.isPlain⟩ rest

variable {d : Disk} {p dir : Path} {q : Location} {name last : String} {isLast : Bool}

/-! ## What is in a directory -/

/-- The path can be asked for and leads to a directory. -/
def IsOpen (d : Disk) (p : Path) : Prop :=
  hasNull p.text = false ∧ ∃ q, d.directoryAt? p = some q

/-- Something of this name is in the directory at the path. -/
def Holds (d : Disk) (p : Path) (name : String) : Prop :=
  hasNull p.text = false ∧ ∃ q, d.directoryAt? p = some q ∧ d.get? (q ++ [name]) ≠ none

theorem contents_of_directoryAt (hnull : hasNull p.text = false)
    (hq : d.directoryAt? p = some q) : d.contents p = d.childNames q := by
  unfold contents
  rw [hnull, if_neg Bool.false_ne_true]
  unfold directoryAt? at hq
  unfold list
  split at hq
  case h_1 hf =>
    cases hq
    rfl
  case h_2 => cases hq

theorem contents_of_not_isOpen (h : ¬ d.IsOpen p) : d.contents p = [] := by
  unfold contents
  split
  case isTrue => rfl
  case isFalse hnull =>
    have hnone : ∀ q, d.find .target p.text ≠ .ok (.entry q .directory) := by
      intro q hf
      refine h ⟨Bool.eq_false_iff.mpr hnull, q, ?_⟩
      unfold directoryAt?
      rw [hf]
    unfold list
    split
    case h_1 q hf => exact absurd hf (hnone q)
    case h_2 => rfl

theorem WellFormed.mem_contents (hd : d.WellFormed) : name ∈ d.contents p ↔ d.Holds p name := by
  constructor
  · intro hmem
    by_cases ho : d.IsOpen p
    · obtain ⟨hnull, q, hq⟩ := ho
      rw [contents_of_directoryAt hnull hq, hd.mem_childNames] at hmem
      exact ⟨hnull, q, hq, hmem⟩
    · rw [contents_of_not_isOpen ho] at hmem
      exact absurd hmem List.not_mem_nil
  · rintro ⟨hnull, q, hq, hget⟩
    rwa [contents_of_directoryAt hnull hq, hd.mem_childNames]

theorem WellFormed.nodup_contents (hd : d.WellFormed) (p : Path) : (d.contents p).Nodup := by
  by_cases ho : d.IsOpen p
  · obtain ⟨hnull, q, hq⟩ := ho
    rw [contents_of_directoryAt hnull hq]
    exact hd.nodup_childNames q
  · rw [contents_of_not_isOpen ho]
    exact List.nodup_nil

theorem proper_of_child (hp : (dir.child name).Proper) : dir.Proper :=
  fun part hpart => hp part (List.mem_append_left _ hpart)

/-- The directory that a directory is in. -/
theorem IsOpen.parent (hp : (dir.child name).Proper) (ho : d.IsOpen (dir.child name)) :
    d.IsOpen dir := by
  obtain ⟨hnull, q, hq⟩ := ho
  refine ⟨?_, ?_⟩
  · by_cases hne : dir.parts = []
    · obtain ⟨anchor, parts⟩ := dir
      cases hne
      cases anchor <;> decide
    · exact Bool.eq_false_iff.mpr fun h => by
        rw [OutputDir.hasNull_child hne h] at hnull
        cases hnull
  · have hparent := exists_parent_of_directoryAt hp hq
    rwa [Path.parent_child] at hparent

/-- Only what is in an open directory is open. -/
theorem IsOpen.front (more : List String) (hp : Path.Proper ⟨p.anchor, p.parts ++ more⟩)
    (ho : d.IsOpen ⟨p.anchor, p.parts ++ more⟩) : d.IsOpen p := by
  induction more using List.reverseRecOn with
  | nil => rwa [List.append_nil] at ho
  | append_singleton more name ih =>
    rw [← List.append_assoc] at hp ho
    have hchild : (⟨p.anchor, p.parts ++ more ++ [name]⟩ : Path) =
        Path.child ⟨p.anchor, p.parts ++ more⟩ name := rfl
    rw [hchild] at hp ho
    exact ih (proper_of_child hp) (ho.parent hp)

/-! ## Escaped components -/

theorem isHidden_escape (name : String) : isHidden (Pattern.escape name) = isHidden name := by
  unfold isHidden Pattern.escape
  rw [String.toList_ofList]
  cases name.toList with
  | nil => rfl
  | cons c cs =>
    rw [List.flatMap_cons, Pattern.escapeChar]
    split
    case isTrue h =>
      have hdot : c ≠ '.' := by
        rintro rfl
        cases h
      simp [hdot]
    case isFalse => rfl

/-- An escaped name is compared with the names in the directory, and found if it is there. -/
theorem WellFormed.matched_escape (hd : d.WellFormed) (dir : Path) (name : String) :
    d.matched dir (Pattern.escape name) = if name ∈ d.contents dir then [name] else [] := by
  have htest : (fun n => (isHidden (Pattern.escape name) || !isHidden n) &&
      Pattern.isMatch (Pattern.escape name) n) = fun n => n == name := by
    funext n
    rw [isHidden_escape, Bool.eq_iff_iff, Bool.and_eq_true, Pattern.isMatch_escape_iff, beq_iff_eq,
      and_iff_right_of_imp]
    rintro rfl
    cases isHidden n <;> rfl
  unfold matched
  rw [htest, List.filter_beq, (hd.nodup_contents dir).count]
  split <;> rfl

/-- An escaped component leads to the entry of that name at most. -/
theorem WellFormed.expand_escape (hd : d.WellFormed) (isLast : Bool) (dir : Path)
    (name : String) :
    d.expand isLast dir (Pattern.escape name) = [] ∨
      d.expand isLast dir (Pattern.escape name) = [dir.child name] := by
  have hone : ∀ (f : Path → Bool), [dir.child name].filter f = [] ∨
      [dir.child name].filter f = [dir.child name] := by
    intro f
    cases hf : f (dir.child name) with
    | true => exact .inr (List.filter_cons_of_pos hf)
    | false => exact .inl (List.filter_cons_of_neg (by simpa using hf))
  unfold expand
  rw [Pattern.isPlain_escape]
  split
  case isTrue hplain =>
    rw [Pattern.escape_of_plain hplain]
    exact hone _
  case isFalse =>
    rw [hd.matched_escape]
    split
    · exact hone _
    · exact .inl rfl

/-- A directory's own name is among those in the directory above it. -/
theorem IsOpen.get?_ne_none (hp : (dir.child name).Proper) (hup : name ≠ "..")
    (ho : d.IsOpen (dir.child name)) (hq : d.directoryAt? dir = some q) :
    d.get? (q ++ [name]) ≠ none := by
  intro hnone
  obtain ⟨-, q', hq'⟩ := ho
  have hname : Path.IsPart name := hp name (List.mem_append_right _ List.mem_cons_self)
  obtain ⟨-, links, hr⟩ := (directoryAt?_eq_some_iff (proper_of_child hp)).mp hq
  obtain ⟨hfits, -⟩ := (directoryAt?_eq_some_iff hp).mp hq'
  obtain ⟨hfind, -⟩ := find_of_directoryAt hp hq'
  have hstart : d.startOf (dir.child name) = d.startOf dir := rfl
  rw [find_snoc hp (dir.child_parts_ne_nil name) hfits, Path.parent_child, hstart, hr,
    Path.name_child] at hfind
  dsimp only at hfind
  by_cases hlong : maxName < name.utf8ByteSize
  · rw [walk_long hname hup hlong] at hfind
    cases hfind
  · rw [walk_name hname hup (Nat.le_of_not_lt hlong) (.inr fun t => by rw [hnone]; exact nofun),
      foundAt, hnone] at hfind
    cases hfind

/-- It leads there if a directory is to be found. -/
theorem WellFormed.expand_of_isOpen (hd : d.WellFormed) (hp : (dir.child name).Proper)
    (ho : d.IsOpen (dir.child name)) :
    d.expand isLast dir (Pattern.escape name) = [dir.child name] := by
  have ho' := ho
  obtain ⟨hnull, q, hq⟩ := ho'
  obtain ⟨htarget, l, e, hitself⟩ := find_of_directoryAt hp hq
  unfold expand
  rw [Pattern.isPlain_escape]
  split
  case isTrue hplain =>
    have hthere : d.isThere (dir.child name) = true := by
      unfold isThere
      rw [look_of_entry hnull hitself]
    rw [Pattern.escape_of_plain hplain, List.filter_cons_of_pos hthere, List.filter_nil]
  case isFalse hwild =>
    have hup : name ≠ ".." := by
      rintro rfl
      exact hwild (by decide)
    have hmem : name ∈ d.contents dir := by
      obtain ⟨hnull', q', hq'⟩ := ho.parent hp
      exact hd.mem_contents.mpr ⟨hnull', q', hq', ho.get?_ne_none hp hup hq'⟩
    have hleads : d.leadsOn (dir.child name) = true := by
      unfold leadsOn isDirectory?
      rw [look_of_entry hnull htarget]
      rfl
    rw [hd.matched_escape, if_pos hmem, List.map_singleton,
      List.filter_cons_of_pos (by rw [hleads, Bool.or_true]), List.filter_nil]

/-- **Escaped components lead where the components lead**, and nowhere else. -/
theorem WellFormed.searchFrom_escaped (hd : d.WellFormed)
    (hlast : Pattern.isPlain last = false) : ∀ (parts : List String) (dir : Path),
      Path.Proper ⟨dir.anchor, dir.parts ++ parts⟩ →
      d.searchFrom dir (parts.map Pattern.escape ++ [last]) =
        (d.matched ⟨dir.anchor, dir.parts ++ parts⟩ last).map
          (Path.child ⟨dir.anchor, dir.parts ++ parts⟩)
  | [], dir, _ => by
    rw [List.map_nil, List.nil_append, List.append_nil, searchFrom, expand, hlast,
      if_neg Bool.false_ne_true]
    simp [searchFrom]
  | name :: parts, dir, hp => by
    have hassoc : dir.parts ++ name :: parts = (dir.child name).parts ++ parts :=
      List.append_cons dir.parts name parts
    have hchild : (dir.child name).Proper := fun part hpart => hp part (by
      rw [hassoc]
      exact List.mem_append_left parts hpart)
    rw [hassoc] at hp ⊢
    have ih := searchFrom_escaped hd hlast parts (dir.child name) hp
    rw [List.map_cons, List.cons_append, searchFrom]
    by_cases ho : d.IsOpen (dir.child name)
    · rw [hd.expand_of_isOpen hchild ho, List.flatMap_singleton]
      exact ih
    · -- what cannot be entered has nothing in it that could be found
      have hnone : d.matched ⟨dir.anchor, (dir.child name).parts ++ parts⟩ last = [] := by
        have hclosed := contents_of_not_isOpen fun h => ho (IsOpen.front parts hp h)
        unfold matched
        rw [show dir.anchor = (dir.child name).anchor from rfl, hclosed, List.filter_nil]
      rcases hd.expand_escape (parts.map Pattern.escape ++ [last]).isEmpty dir name with
        hexpand | hexpand
      · rw [hexpand, hnone]
        rfl
      · rw [hexpand, List.flatMap_singleton]
        exact ih

theorem takeWhile_escape (hlast : Pattern.isPlain last = false) : ∀ parts : List String,
    (parts.map Pattern.escape ++ [last]).takeWhile Pattern.isPlain =
      parts.takeWhile Pattern.isPlain
  | [] => by
    rw [List.map_nil, List.nil_append, List.takeWhile_cons, hlast]
    rfl
  | part :: parts => by
    rw [List.map_cons, List.cons_append, List.takeWhile_cons, List.takeWhile_cons,
      Pattern.isPlain_escape]
    split
    case isTrue h => rw [Pattern.escape_of_plain h, takeWhile_escape hlast parts]
    case isFalse => rfl

theorem dropWhile_escape (hlast : Pattern.isPlain last = false) : ∀ parts : List String,
    (parts.map Pattern.escape ++ [last]).dropWhile Pattern.isPlain =
      (parts.dropWhile Pattern.isPlain).map Pattern.escape ++ [last]
  | [] => by
    rw [List.map_nil, List.nil_append, List.dropWhile_cons, hlast]
    rfl
  | part :: parts => by
    rw [List.map_cons, List.cons_append, List.dropWhile_cons, List.dropWhile_cons,
      Pattern.isPlain_escape]
    split
    case isTrue => exact dropWhile_escape hlast parts
    case isFalse => rfl

/-- **The search for names in an escaped directory** finds those names in that directory. -/
theorem WellFormed.search_escaped (hd : d.WellFormed) (hp : p.Proper)
    (hlast : Pattern.isPlain last = false) :
    d.search (p.escaped.child last) = (d.matched p last).map p.child := by
  have hall : p.parts.takeWhile Pattern.isPlain ++ p.parts.dropWhile Pattern.isPlain = p.parts :=
    List.takeWhile_append_dropWhile
  have hfound := hd.searchFrom_escaped hlast (p.parts.dropWhile Pattern.isPlain)
    ⟨p.anchor, p.parts.takeWhile Pattern.isPlain⟩ (by rwa [hall])
  rw [hall] at hfound
  unfold search
  dsimp only [Path.child, Path.escaped]
  rw [takeWhile_escape hlast, dropWhile_escape hlast]
  split
  case h_1 hnil => exact absurd hnil (List.concat_ne_nil _ _)
  case h_2 => exact hfound

end Disk

end Assay
