import Assay.Proofs.Classification
import Assay.Proofs.Lines
import Mathlib.Data.Bool.AllAny

/-!
# What a marker line announces

A marker is the bare line, which announces any panic, or `announcement text`, which announces a panic
with this text. `Announces` is this grammar, and `parse_iff` says what the reader of markers accepts:
the grammar, and one line more. In the line `clipped` the closing begins with the quote that belongs
to the opening, and the reader takes it for an announcement of any panic. The last line that is
accepted decides what a run expects, `expectation_iff`. Both together are `extract_iff`.
-/

namespace Assay.Marker

variable {line text : String} {lines : List String}

/-! ## Announcements -/

/-- The line that announces a panic with this text. -/
def announcement (text : String) : String :=
  opening ++ text ++ closing

theorem tag_prefix_announcement (text : String) :
    tag.toList <+: (announcement text).toList := by
  have htag : opening.toList = tag.toList ++ " should_panic(expected = \"".toList := by decide
  rw [announcement, String.toList_append, String.toList_append, htag, List.append_assoc,
    List.append_assoc]
  exact List.prefix_append _ _

theorem inner_announcement (text : String) : inner (announcement text).toList = text.toList := by
  unfold inner announcement
  rw [String.toList_append, String.toList_append, List.append_assoc, List.drop_left]
  have hlen : (opening.toList ++ (text.toList ++ closing.toList)).length - closing.toList.length -
      opening.toList.length = text.toList.length := by
    rw [List.length_append, List.length_append]
    omega
  rw [hlen, List.take_left]

theorem parse_announcement (text : String) : parse (announcement text) = some text := by
  have hne : announcement text ≠ bare := by
    intro h
    have hlen := congrArg (fun s => s.toList.length) h
    have hlt : bare.toList.length < opening.toList.length := by decide
    simp only [announcement, String.toList_append, List.length_append] at hlen
    omega
  have hstart : Text.startsWith opening (announcement text) = true := by
    rw [Text.startsWith_iff, announcement, String.toList_append, String.toList_append,
      List.append_assoc]
    exact List.prefix_append _ _
  have hend : Text.endsWith closing (announcement text) = true := by
    rw [Text.endsWith_iff, announcement, String.toList_append]
    exact List.suffix_append _ _
  unfold parse
  rw [if_neg hne, hstart, hend, inner_announcement, String.ofList_toList]
  rfl

theorem oneLine_announcement (ht : Text.OneLine text) : Text.OneLine (announcement text) := by
  have hopening : Text.OneLine opening := List.all_iff_forall_prop.mp (by decide)
  have hclosing : Text.OneLine closing := List.all_iff_forall_prop.mp (by decide)
  exact (hopening.append ht).append hclosing

theorem isMarker_of_parse {line text : String} (h : parse line = some text) :
    tag.toList <+: line.toList := by
  unfold parse at h
  split at h
  case isTrue hb =>
    rw [hb]
    exact ⟨" should_panic".toList, by decide⟩
  case isFalse =>
    split at h
    case isTrue hc =>
      rw [Bool.and_eq_true] at hc
      have htag : tag.toList <+: opening.toList := ⟨" should_panic(expected = \"".toList, by decide⟩
      exact htag.trans (Text.startsWith_iff.mp hc.1)
    case isFalse => cases h

/-! ## The grammar -/

/-- The line is the marker of the text. -/
def Announces (line text : String) : Prop :=
  line = bare ∧ text = "" ∨ line = announcement text

/-- The opening and the closing with one quote for both. -/
def clipped : String :=
  opening ++ ")"

/-- What the reader accepts. -/
def Accepts (line text : String) : Prop :=
  Announces line text ∨ line = clipped ∧ text = ""

theorem parse_bare : parse bare = some "" :=
  if_pos rfl

theorem parse_clipped : parse clipped = some "" := by
  decide

/-- What begins with the opening and ends with the closing is an announcement or is clipped. -/
theorem announcement_or_clipped (ho : opening.toList <+: line.toList)
    (hc : closing.toList <:+ line.toList) : (∃ text, line = announcement text) ∨ line = clipped := by
  obtain ⟨rest, hrest⟩ := ho
  have hsuffix : rest <:+ line.toList := ⟨opening.toList, hrest⟩
  rcases List.suffix_or_suffix_of_suffix hc hsuffix with ⟨text, htext⟩ | hshort
  · refine .inl ⟨String.ofList text, String.toList_inj.mp ?_⟩
    rw [← hrest, ← htext, announcement, String.toList_append, String.toList_append,
      String.toList_ofList, List.append_assoc]
  · -- too short for a quote of its own
    have hclosing : closing.toList = ['"', ')'] := by decide
    rw [hclosing, List.suffix_cons_iff, List.suffix_cons_iff, List.suffix_nil] at hshort
    rcases hshort with rfl | rfl | rfl
    · exact .inl ⟨"", String.toList_inj.mp (by rw [← hrest]; decide)⟩
    · exact .inr (String.toList_inj.mp (by rw [← hrest]; decide))
    · rw [← hrest] at hc
      exact absurd hc (by decide)

/-- **The reader accepts the grammar and the clipped line**, and nothing else. -/
theorem parse_iff : parse line = some text ↔ Accepts line text := by
  have haccepts : parse line = some text → line = bare ∨ (∃ t, line = announcement t) ∨
      line = clipped := by
    intro h
    unfold parse at h
    split at h
    case isTrue hb => exact .inl hb
    case isFalse =>
      split at h
      case isTrue hc =>
        rw [Bool.and_eq_true] at hc
        exact .inr (announcement_or_clipped (Text.startsWith_iff.mp hc.1)
          (Text.endsWith_iff.mp hc.2))
      case isFalse => cases h
  constructor
  · intro h
    rcases haccepts h with rfl | ⟨t, rfl⟩ | rfl
    · rw [parse_bare] at h
      exact .inl (.inl ⟨rfl, (Option.some.inj h).symm⟩)
    · rw [parse_announcement] at h
      exact .inl (.inr (congrArg announcement (Option.some.inj h)))
    · rw [parse_clipped] at h
      exact .inr ⟨rfl, (Option.some.inj h).symm⟩
  · rintro ((⟨rfl, rfl⟩ | rfl) | ⟨rfl, rfl⟩)
    · exact parse_bare
    · exact parse_announcement text
    · exact parse_clipped

theorem parse_eq_none_iff : parse line = none ↔ ∀ text, ¬ Accepts line text := by
  rw [Option.eq_none_iff_forall_ne_some]
  exact forall_congr' fun text => not_congr parse_iff

theorem isMarker_of_announces (h : Announces line text) : isMarker line = true :=
  Text.startsWith_iff.mpr (isMarker_of_parse (parse_iff.mpr (.inl h)))

theorem oneLine_of_announces (h : Announces line text) (ht : Text.OneLine text) :
    Text.OneLine line := by
  rcases h with ⟨rfl, -⟩ | rfl
  · exact List.all_iff_forall_prop.mp (by decide)
  · exact oneLine_announcement ht

/-! ## The last marker -/

theorem expectation_singleton (h : Announces line text) : expectation [line] = some text := by
  unfold expectation
  rw [List.filterMap_cons_some (parse_iff.mpr (.inl h))]
  rfl

/-- **The last line that is accepted decides** what a run expects. -/
theorem expectation_iff : expectation lines = some text ↔ ∃ pre line post,
    lines = pre ++ line :: post ∧ Accepts line text ∧ ∀ l ∈ post, ∀ t, ¬ Accepts l t := by
  unfold expectation
  rw [List.getLast?_filterMap, List.findSome?_eq_some_iff]
  constructor
  · rintro ⟨post, line, pre, hlines, hline, hpost⟩
    refine ⟨pre.reverse, line, post.reverse, ?_, parse_iff.mp hline, fun l hl => ?_⟩
    · rw [← List.reverse_reverse lines, hlines]
      simp
    · exact parse_eq_none_iff.mp (hpost l (List.mem_reverse.mp hl))
  · rintro ⟨pre, line, post, rfl, hline, hpost⟩
    refine ⟨post.reverse, line, pre.reverse, by simp, parse_iff.mpr hline, fun l hl => ?_⟩
    exact parse_eq_none_iff.mpr (hpost l (List.mem_reverse.mp hl))

theorem expectation_eq_none_iff :
    expectation lines = none ↔ ∀ l ∈ lines, ∀ text, ¬ Accepts l text := by
  unfold expectation
  rw [List.getLast?_eq_none_iff, List.filterMap_eq_nil_iff]
  exact forall₂_congr fun l _ => parse_eq_none_iff

/-- **Markers are read by their grammar, and the last one wins.** A line is read as the marker of a
text exactly if it announces the text, but for the clipped line, which is read as the marker of any
panic. What a run expects is the text of the last line that is read as a marker, and nothing if
there is none. -/
theorem extract_iff (line text : String) (lines : List String) (h : Host) (w : World) :
    (parse line = some text ↔ Announces line text ∨ line = clipped ∧ text = "") ∧
    ∃ expect, ((extract lines).run h w).1 = .ok expect ∧
      (∀ text, expect = some text ↔ ∃ pre line post, lines = pre ++ line :: post ∧
        Accepts line text ∧ ∀ l ∈ post, ∀ t, ¬ Accepts l t) ∧
      (expect = none ↔ ∀ l ∈ lines, ∀ t, ¬ Accepts l t) :=
  ⟨parse_iff, expectation lines, Action.Returns.value (extract_returns lines) h w,
    fun _ => expectation_iff, expectation_eq_none_iff⟩

/-- The clipped line announces nothing, and is read as the marker of any panic. -/
theorem clipped_accepted : parse clipped = some "" ∧ ∀ text, ¬ Announces clipped text := by
  refine ⟨parse_clipped, ?_⟩
  rintro text (⟨hbare, -⟩ | hannounced)
  · exact absurd hbare (by decide)
  · have hlen := congrArg (fun s => s.toList.length) hannounced
    have hclosing : closing.toList.length = 2 := by decide
    have hmark : ")".toList.length = 1 := by decide
    simp only [clipped, announcement, String.toList_append, List.length_append] at hlen
    omega

end Assay.Marker
