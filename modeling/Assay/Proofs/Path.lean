import Assay.Disk.Walk
import Assay.Path

/-!
# Paths and their texts

Operations on a disk get the text of a path and cut it into components again. For a path whose
components are names, `Proper`, these are the components that it had: `find_text` says that finding
it is a walk along its parts. All that reading makes of a text is proper.
-/

namespace Assay

namespace Text

variable {p : Char → Bool} {c : Char} {cs : List Char}

theorem splitBy_cons_of_pos (hc : p c = true) : splitBy p (c :: cs) = [] :: splitBy p cs := by
  rw [splitBy, if_pos hc]

theorem splitBy_of_forall (h : ∀ c ∈ cs, p c = false) : splitBy p cs = [cs] := by
  induction cs with
  | nil => rfl
  | cons c cs ih =>
    rw [splitBy, h c List.mem_cons_self, if_neg Bool.false_ne_true,
      ih fun d hd => h d (List.mem_cons_of_mem c hd)]

/-- A separator cuts the text. -/
theorem splitBy_append (hc : p c = true) (ds : List Char) :
    ∀ cs : List Char, splitBy p (cs ++ c :: ds) = splitBy p cs ++ splitBy p ds
  | [] => splitBy_cons_of_pos hc
  | b :: cs => by
    rw [List.cons_append, splitBy, splitBy, splitBy_append hc ds cs]
    split
    · rfl
    · cases hs : splitBy p cs with
      | nil => exact absurd hs (splitBy_ne_nil p cs)
      | cons field fields => rfl

/-- No field holds a separator. -/
theorem not_sep_of_mem_splitBy (p : Char → Bool) :
    ∀ cs : List Char, ∀ field ∈ splitBy p cs, ∀ c ∈ field, p c = false
  | [], field, hf, c, hc => by
    rw [List.mem_singleton.mp hf] at hc
    cases hc
  | b :: cs, field, hf, c, hc => by
    have ih := not_sep_of_mem_splitBy p cs
    rw [splitBy] at hf
    split at hf
    case isTrue hb =>
      rcases List.mem_cons.mp hf with rfl | hf
      · cases hc
      · exact ih field hf c hc
    case isFalse hb =>
      have hb : p b = false := Bool.eq_false_iff.mpr hb
      split at hf
      case h_1 heq => exact absurd heq (splitBy_ne_nil p cs)
      case h_2 first fields heq =>
        rw [heq] at ih
        rcases List.mem_cons.mp hf with rfl | hf
        · rcases List.mem_cons.mp hc with rfl | hc
          · exact hb
          · exact ih first List.mem_cons_self c hc
        · exact ih field (List.mem_cons_of_mem first hf) c hc

/-- Cutting at the separators gives back the fields. -/
theorem splitBy_intercalate (hc : p c = true) :
    ∀ (fields : List (List Char)), fields ≠ [] → (∀ f ∈ fields, ∀ d ∈ f, p d = false) →
      splitBy p ([c].intercalate fields) = fields
  | [], hne, _ => absurd rfl hne
  | [f], _, h => by
    rw [List.intercalate_singleton]
    exact splitBy_of_forall (h f List.mem_cons_self)
  | f :: g :: fields, _, h => by
    have ih := splitBy_intercalate hc (g :: fields) (List.cons_ne_nil g fields)
      fun k hk => h k (List.mem_cons_of_mem f hk)
    rw [List.intercalate_cons_cons, List.append_assoc, List.singleton_append, splitBy_append hc, ih,
      splitBy_of_forall (h f List.mem_cons_self)]
    rfl

end Text

namespace Path

/-- A component that reading keeps: it is neither empty nor a dot, and holds no slash. -/
def IsPart (part : String) : Prop :=
  part ≠ "" ∧ part ≠ "." ∧ '/' ∉ part.toList

instance : DecidablePred IsPart := fun part =>
  inferInstanceAs (Decidable (part ≠ "" ∧ part ≠ "." ∧ '/' ∉ part.toList))

/-- All components are such. -/
def Proper (p : Path) : Prop :=
  ∀ part ∈ p.parts, IsPart part

instance (p : Path) : Decidable p.Proper :=
  inferInstanceAs (Decidable (∀ part ∈ p.parts, IsPart part))

theorem proper_parse (s : String) : (parse s).Proper := by
  intro part hpart
  obtain ⟨cs, hcs, rfl⟩ := List.mem_map.mp hpart
  obtain ⟨hmem, hproper⟩ := List.mem_filter.mp hcs
  refine ⟨fun he => ?_, fun he => ?_, fun hslash => ?_⟩
  · have hnil : cs = [] := by
      rw [← String.toList_ofList (l := cs), he]
      rfl
    rw [hnil] at hproper
    cases hproper
  · have hdot : cs = ['.'] := by
      rw [← String.toList_ofList (l := cs), he]
      rfl
    rw [hdot] at hproper
    cases hproper
  · rw [String.toList_ofList] at hslash
    have := Text.not_sep_of_mem_splitBy _ _ cs hmem _ hslash
    cases this

theorem Proper.parent {p : Path} (hp : p.Proper) : p.parent.Proper :=
  fun part hpart => hp part (List.dropLast_subset _ hpart)

variable {p : Path}

/-- The components with slashes between them. -/
theorem toList_joinWith (parts : List String) :
    (Text.joinWith "/" parts).toList = ['/'].intercalate (parts.map String.toList) :=
  Text.toList_joinWith "/" parts

theorem text_toList (hp : p.anchor ≠ .relative ∨ p.parts ≠ []) :
    p.text.toList =
      p.anchor.text.toList ++ ['/'].intercalate (p.parts.map String.toList) := by
  unfold Path.text
  split
  case h_1 ha hparts =>
    rcases hp with hp | hp
    · exact absurd ha hp
    · exact absurd hparts hp
  case h_2 => rw [String.toList_append, toList_joinWith]

/-- Joining one more component. -/
theorem intercalate_concat (f : List Char) :
    ∀ (fields : List (List Char)), fields ≠ [] →
      ['/'].intercalate (fields ++ [f]) = ['/'].intercalate fields ++ '/' :: f
  | [], hne => absurd rfl hne
  | [g], _ => by
    rw [List.singleton_append, List.intercalate_cons_cons, List.intercalate_singleton,
      List.intercalate_singleton, List.append_assoc, List.singleton_append]
  | g :: k :: fields, _ => by
    have ih := intercalate_concat f (k :: fields) (List.cons_ne_nil k fields)
    rw [List.cons_append, List.intercalate_cons_of_ne_nil (List.concat_ne_nil _ _), ih,
      List.intercalate_cons_cons, List.append_assoc, List.append_assoc, List.append_assoc]

/-- The text of a path with a parent that has components: the parent's text, a slash, the name. -/
theorem text_of_parent (hne : p.parent.parts ≠ []) : p.text = p.parent.text ++ "/" ++ p.name := by
  obtain ⟨anchor, parts⟩ := p
  rcases List.eq_nil_or_concat parts with rfl | ⟨init, part, rfl⟩
  · exact absurd rfl hne
  · rw [List.concat_eq_append]
    have hinit : init ≠ [] := by
      rw [parent, List.concat_eq_append, List.dropLast_concat] at hne
      exact hne
    refine String.toList_inj.mp ?_
    rw [parent, name, List.dropLast_concat, List.getLast?_concat, Option.getD_some,
      String.toList_append, String.toList_append, text_toList (.inr (List.concat_ne_nil _ _)),
      text_toList (.inr hinit), List.map_append, List.map_singleton,
      intercalate_concat _ _ (by rwa [ne_eq, List.map_eq_nil_iff])]
    simp only [List.append_assoc]
    rfl

/-- Joined names neither begin nor end with a slash. -/
theorem intercalate_ends :
    ∀ (fields : List (List Char)), fields ≠ [] → (∀ f ∈ fields, f ≠ [] ∧ '/' ∉ f) →
      (∃ c, (['/'].intercalate fields).head? = some c ∧ c ≠ '/') ∧
        ∃ c, (['/'].intercalate fields).getLast? = some c ∧ c ≠ '/'
  | [], hne, _ => absurd rfl hne
  | [f], _, h => by
    obtain ⟨hf, hslash⟩ := h f List.mem_cons_self
    rw [List.intercalate_singleton]
    refine ⟨⟨f.head hf, List.head?_eq_some_head hf, ?_⟩, f.getLast hf,
      List.getLast?_eq_some_getLast hf, ?_⟩
    · exact fun he => hslash (he ▸ List.head_mem hf)
    · exact fun he => hslash (he ▸ List.getLast_mem hf)
  | f :: g :: fields, _, h => by
    obtain ⟨hf, hslash⟩ := h f List.mem_cons_self
    obtain ⟨-, c, hc, hne⟩ := intercalate_ends (g :: fields) (List.cons_ne_nil g fields)
      fun k hk => h k (List.mem_cons_of_mem f hk)
    rw [List.intercalate_cons_cons]
    refine ⟨⟨f.head hf, ?_, fun he => hslash (he ▸ List.head_mem hf)⟩, c, ?_, hne⟩
    · rw [List.append_assoc, List.head?_append, List.head?_eq_some_head hf]
      rfl
    · rw [List.getLast?_append, hc]
      rfl

theorem Proper.fields (hp : p.Proper) :
    ∀ f ∈ p.parts.map String.toList, f ≠ [] ∧ '/' ∉ f := by
  intro f hf
  obtain ⟨part, hpart, rfl⟩ := List.mem_map.mp hf
  obtain ⟨hne, -, hslash⟩ := hp part hpart
  exact ⟨fun h => hne (String.toList_eq_nil_iff.mp h), hslash⟩

/-- The fields of a text are the components, after the empty ones that the anchor makes. -/
theorem splitBy_text (hp : p.Proper) (hne : p.parts ≠ []) :
    ((Text.splitBy (· == '/') p.text.toList).filter fun c => !c.isEmpty) =
      p.parts.map String.toList := by
  have hfields : Text.splitBy (· == '/') (['/'].intercalate (p.parts.map String.toList)) =
      p.parts.map String.toList := by
    refine Text.splitBy_intercalate rfl _ (by rwa [ne_eq, List.map_eq_nil_iff]) ?_
    intro f hf c hc
    exact beq_eq_false_iff_ne.mpr fun h => (hp.fields f hf).2 (h ▸ hc)
  have hkeep : (p.parts.map String.toList).filter (fun c => !c.isEmpty) =
      p.parts.map String.toList := by
    refine List.filter_eq_self.mpr fun f hf => ?_
    rw [List.isEmpty_eq_false_iff.mpr (hp.fields f hf).1]
    rfl
  rw [text_toList (.inr hne)]
  generalize ['/'].intercalate (p.parts.map String.toList) = joined at hfields ⊢
  cases p.anchor with
  | relative =>
    show ((Text.splitBy (· == '/') joined).filter _) = _
    rw [hfields, hkeep]
  | root =>
    show ((Text.splitBy (· == '/') ('/' :: joined)).filter _) = _
    rw [Text.splitBy_cons_of_pos rfl, hfields, List.filter_cons_of_neg (by decide), hkeep]
  | doubleRoot =>
    show ((Text.splitBy (· == '/') ('/' :: '/' :: joined)).filter _) = _
    rw [Text.splitBy_cons_of_pos rfl, Text.splitBy_cons_of_pos rfl, hfields,
      List.filter_cons_of_neg (by decide), List.filter_cons_of_neg (by decide), hkeep]

/-- **The components of a path's text** are the components of the path. -/
theorem componentsOf_text (hp : p.Proper) (hne : p.parts ≠ []) :
    Disk.componentsOf p.text.toList = p.parts := by
  obtain ⟨-, c, hc, hslash⟩ := intercalate_ends (p.parts.map String.toList)
    (by rwa [ne_eq, List.map_eq_nil_iff]) hp.fields
  have hlast : p.text.toList.getLast? ≠ some '/' := by
    rw [text_toList (.inr hne), List.getLast?_append, hc]
    exact fun h => hslash (Option.some.inj h)
  unfold Disk.componentsOf
  rw [splitBy_text hp hne, if_neg hlast, List.map_map]
  exact (List.map_congr_left fun s _ => String.ofList_toList).trans (List.map_id _)

/-- The first character of a path's text tells whether the path is anchored. -/
theorem text_head (hp : p.Proper) :
    ∃ c cs, p.text.toList = c :: cs ∧ (c = '/' ↔ p.anchor ≠ .relative) := by
  by_cases hne : p.parts = []
  · obtain ⟨anchor, parts⟩ := p
    cases hne
    cases anchor with
    | relative => exact ⟨'.', [], rfl, by decide⟩
    | root => exact ⟨'/', [], rfl, by decide⟩
    | doubleRoot => exact ⟨'/', ['/'], rfl, by decide⟩
  · obtain ⟨⟨c, hc, hslash⟩, -⟩ := intercalate_ends (p.parts.map String.toList)
      (by rwa [ne_eq, List.map_eq_nil_iff]) hp.fields
    rw [text_toList (.inr hne)]
    generalize ['/'].intercalate (p.parts.map String.toList) = joined at hc ⊢
    cases p.anchor with
    | relative =>
      obtain ⟨cs, rfl⟩ := List.head?_eq_some_iff.mp hc
      exact ⟨c, cs, rfl, fun h => absurd h hslash, fun h => absurd rfl h⟩
    | root => exact ⟨'/', joined, rfl, fun _ => nofun, fun _ => rfl⟩
    | doubleRoot => exact ⟨'/', '/' :: joined, rfl, fun _ => nofun, fun _ => rfl⟩

/-! ## Order -/

theorem le_iff {p q : Path} : le p q = true ↔ List.le p.sortKey q.sortKey := by
  unfold le
  rw [Bool.not_eq_true']
  exact List.lex_eq_false_iff_ge

theorem sortKey_injective {p q : Path} (ha : p.anchor = q.anchor) (h : p.sortKey = q.sortKey) :
    p = q := by
  obtain ⟨anchor, parts⟩ := p
  obtain ⟨anchor', parts'⟩ := q
  cases ha
  have hparts : parts = parts' := by
    cases anchor with
    | relative => exact h
    | root => exact (List.cons.inj h).2
    | doubleRoot => exact (List.cons.inj h).2
  rw [hparts]

/-- Sorted paths do not depend on the order that they came in. -/
theorem sort_eq_of_perm {ps qs : List Path} (h : ps.Perm qs)
    (hanchor : ∀ p ∈ ps, ∀ q ∈ ps, p.anchor = q.anchor) : sort ps = sort qs := by
  have htrans : ∀ a b c : Path, le a b = true → le b c = true → le a c = true := by
    intro a b c hab hbc
    exact le_iff.mpr (List.le_trans (le_iff.mp hab) (le_iff.mp hbc))
  have htotal : ∀ a b : Path, (le a b || le b a) = true := by
    intro a b
    rw [Bool.or_eq_true, le_iff, le_iff]
    exact List.le_total _ _
  have hmem : ∀ {p}, p ∈ sort ps → p ∈ ps := fun hp => (List.mergeSort_perm ps le).mem_iff.mp hp
  have hperm : (sort ps).Perm (sort qs) :=
    (List.mergeSort_perm ps le).trans (h.trans (List.mergeSort_perm qs le).symm)
  refine List.Perm.eq_of_pairwise (fun a b ha hb hab hba => ?_)
    (List.pairwise_mergeSort htrans htotal ps) (List.pairwise_mergeSort htrans htotal qs) hperm
  exact sortKey_injective (hanchor a (hmem ha) b (hmem (hperm.mem_iff.mpr hb)))
    (List.le_antisymm (le_iff.mp hab) (le_iff.mp hba))

end Path

namespace Disk

variable {d : Disk} {aim : Aim} {p : Path}

/-- Where a path starts. -/
def startOf (d : Disk) (p : Path) : Location :=
  if p.anchor = .relative then d.here else []

theorem walk_skip (d : Disk) (aim : Aim) (links : Nat) (loc : Location) {name : String}
    (hname : name = finalSlash ∨ name = ".") (rest : List String) :
    walk d aim links loc (name :: rest) = walk d aim links loc rest := by
  rw [walk, if_pos (by rwa [Bool.or_eq_true, decide_eq_true_eq, decide_eq_true_eq])]

/-- A path is walked along its components. -/
theorem walk_text (d : Disk) (aim : Aim) (links : Nat) (loc : Location) (hp : p.Proper) :
    walk d aim links loc (componentsOf p.text.toList) = walk d aim links loc p.parts := by
  by_cases hne : p.parts = []
  · rw [hne]
    obtain ⟨anchor, parts⟩ := p
    cases hne
    cases anchor with
    | relative => exact walk_skip d aim links loc (.inr rfl) []
    | root => exact walk_skip d aim links loc (.inl rfl) []
    | doubleRoot => exact walk_skip d aim links loc (.inl rfl) []
  · rw [Path.componentsOf_text hp hne]

/-- **Finding a path** is a walk along its components, unless its text is too long. -/
theorem find_text (d : Disk) (aim : Aim) (hp : p.Proper) :
    d.find aim p.text = if maxPath < p.text.utf8ByteSize then .error .nameTooLong
      else walk d aim maxLinks (d.startOf p) p.parts := by
  obtain ⟨c, cs, hcs, hroot⟩ := Path.text_head hp
  have hstart : (if isRooted p.text.toList then [] else d.here) = d.startOf p := by
    unfold isRooted startOf
    rw [hcs, List.head?_cons]
    by_cases ha : p.anchor = .relative
    · have hc : c ≠ '/' := fun h => hroot.mp h ha
      rw [if_pos ha, decide_eq_false (by rwa [Option.some.injEq]), if_neg Bool.false_ne_true]
    · rw [if_neg ha, hroot.mpr ha, decide_eq_true rfl, if_pos rfl]
  unfold find
  dsimp only
  rw [walk_text d aim maxLinks _ hp, hstart, hcs]
  rfl

end Disk

end Assay
