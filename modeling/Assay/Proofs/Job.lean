import Assay.Proofs.Descent
import Assay.Proofs.Loading

/-!
# Jobs, written and read again

A job is written with the text of its artifact's path, and what is written is read as the same job.
This is `ofJson_toJson`. Whatever a job was read from, its path has been normalised by then, and a
normalised path is one that its own text is read as: `Path.parse_text_iff`.

What a text is read as is said by `Path.Reads`, without cutting it up: the slashes in front are the
anchor, and of the fields behind them those that name something are the components.
-/

namespace Assay

namespace Text

variable {c : Char} {cs : List Char}

/-- The fields with their separators between them are the text. -/
theorem intercalate_splitBy (c : Char) :
    ∀ cs : List Char, [c].intercalate (splitBy (· == c) cs) = cs
  | [] => rfl
  | b :: cs => by
    have ih := intercalate_splitBy c cs
    obtain ⟨field, fields, hs⟩ := List.exists_cons_of_ne_nil (splitBy_ne_nil (· == c) cs)
    rw [splitBy]
    by_cases hb : b = c
    · rw [if_pos (beq_iff_eq.mpr hb), hs, List.intercalate_cons_cons, ← hs, ih, hb]
      rfl
    · rw [if_neg (by rwa [beq_iff_eq]), hs]
      rw [hs] at ih
      dsimp only
      cases fields with
      | nil =>
        rw [List.intercalate_singleton] at ih ⊢
        rw [ih]
      | cons g fields =>
        rw [List.intercalate_cons_cons] at ih ⊢
        rw [← ih]
        rfl

/-- Every separator in front makes an empty field. -/
theorem splitBy_replicate {p : Char → Bool} (hc : p c = true) (cs : List Char) : ∀ n : Nat,
    splitBy p (List.replicate n c ++ cs) = List.replicate n [] ++ splitBy p cs
  | 0 => rfl
  | n + 1 => by
    rw [List.replicate_succ, List.cons_append, splitBy_cons_of_pos hc, splitBy_replicate hc cs n]
    rfl

end Text

namespace Path

variable {p : Path} {s : String} {fields : List String}

/-! ## What a text is read as -/

/-- What a path starts from whose text begins with this many slashes. -/
def anchorOfSlashes : Nat → Anchor
  | 0 => .relative
  | 2 => .doubleRoot
  | _ => .root

/-- A field that names something: it is neither empty nor a single dot. -/
def Names (field : String) : Prop :=
  field ≠ "" ∧ field ≠ "."

instance : DecidablePred Names :=
  fun field => inferInstanceAs (Decidable (field ≠ "" ∧ field ≠ "."))

/-- The text of some slashes and then of fields, with a slash between neighbours. -/
def slashed (slashes : Nat) (fields : List String) : String :=
  String.ofList (List.replicate slashes '/') ++ Text.joinWith "/" fields

/-- A text is so many slashes and then fields without slashes, the first of which is not empty. What
it is read as starts from what the slashes say and leads through the fields that name something. -/
inductive Reads : String → Path → Prop where
  | slashed (slashes : Nat) {fields : List String} (plain : ∀ f ∈ fields, '/' ∉ f.toList)
    (first : fields.head? ≠ some "") :
    Reads (Path.slashed slashes fields) ⟨anchorOfSlashes slashes, fields.filter Names⟩

theorem isProper_toList (field : String) : isProper field.toList = decide (Names field) := by
  rw [Bool.eq_iff_iff, decide_eq_true_eq]
  unfold isProper Names
  rw [Bool.and_eq_true, Bool.not_eq_true', List.isEmpty_eq_false_iff, bne_iff_ne]
  refine and_congr (not_congr String.toList_eq_nil_iff) (not_congr ?_)
  show field.toList = ".".toList ↔ field = "."
  exact String.toList_inj

/-- Behind the slashes in front there is something else. -/
theorem head?_intercalate (plain : ∀ f ∈ fields, '/' ∉ f.toList) (first : fields.head? ≠ some "") :
    (['/'].intercalate (fields.map String.toList)).head? ≠ some '/' := by
  cases fields with
  | nil => exact nofun
  | cons f fields =>
    have hf : f ≠ "" := fun h => first (h ▸ rfl)
    obtain ⟨c, cs, hcs⟩ :=
      List.exists_cons_of_ne_nil fun h : f.toList = [] => hf (String.toList_eq_nil_iff.mp h)
    have hc : c ≠ '/' := by
      rintro rfl
      exact plain f List.mem_cons_self (hcs ▸ List.mem_cons_self)
    cases fields with
    | nil =>
      rw [List.map_singleton, List.intercalate_singleton, hcs, List.head?_cons]
      exact fun h => hc (Option.some.inj h)
    | cons g fields =>
      rw [List.map_cons, List.map_cons, List.intercalate_cons_cons, hcs, List.cons_append,
        List.cons_append, List.head?_cons]
      exact fun h => hc (Option.some.inj h)

theorem toList_slashed (slashes : Nat) (fields : List String) :
    (slashed slashes fields).toList =
      List.replicate slashes '/' ++ ['/'].intercalate (fields.map String.toList) := by
  rw [slashed, String.toList_append, String.toList_ofList, toList_joinWith]

theorem anchorOf_slashed {slashes : Nat} {cs : List Char} (hcs : cs.head? ≠ some '/') :
    anchorOf (List.replicate slashes '/' ++ cs) = anchorOfSlashes slashes := by
  have hslashes : (List.replicate slashes '/' ++ cs).takeWhile (· == '/') =
      List.replicate slashes '/' := by
    have hall : ∀ c ∈ List.replicate slashes '/', (c == '/') = true :=
      fun c hc => beq_iff_eq.mpr (List.eq_of_mem_replicate hc)
    rw [List.takeWhile_append_of_pos hall]
    cases cs with
    | nil => rw [List.takeWhile_nil, List.append_nil]
    | cons c cs =>
      have hc : ¬ (c == '/') = true := fun h => hcs (congrArg some (beq_iff_eq.mp h))
      rw [List.takeWhile_cons_of_neg (p := (· == '/')) hc, List.append_nil]
  unfold anchorOf
  rw [hslashes, List.length_replicate]
  rfl

theorem components_slashed (slashes : Nat) (plain : ∀ f ∈ fields, '/' ∉ f.toList) :
    components (List.replicate slashes '/' ++ ['/'].intercalate (fields.map String.toList)) =
      fields.filter Names := by
  have hempty : (List.replicate slashes ([] : List Char)).filter isProper = [] := by
    refine List.filter_eq_nil_iff.mpr fun f hf => ?_
    rw [List.eq_of_mem_replicate hf]
    exact Bool.false_ne_true
  have hfields : (Text.splitBy (· == '/')
      (['/'].intercalate (fields.map String.toList))).filter isProper =
        (fields.map String.toList).filter isProper := by
    by_cases hne : fields = []
    · rw [hne]
      rfl
    · rw [Text.splitBy_intercalate rfl _ (by rwa [ne_eq, List.map_eq_nil_iff])]
      intro f hf c hc
      obtain ⟨field, hmem, rfl⟩ := List.mem_map.mp hf
      exact beq_eq_false_iff_ne.mpr fun h => plain field hmem (h ▸ hc)
  have hnames : isProper ∘ String.toList = fun f => decide (Names f) := funext isProper_toList
  unfold components
  rw [Text.splitBy_replicate rfl, List.filter_append, hempty, List.nil_append, hfields,
    List.filter_map, hnames, List.map_map]
  exact (List.map_congr_left fun f _ => String.ofList_toList).trans (List.map_id _)

theorem parse_slashed (slashes : Nat) (plain : ∀ f ∈ fields, '/' ∉ f.toList)
    (first : fields.head? ≠ some "") :
    parse (slashed slashes fields) = ⟨anchorOfSlashes slashes, fields.filter Names⟩ := by
  rw [parse, toList_slashed, anchorOf_slashed (head?_intercalate plain first),
    components_slashed slashes plain]

/-- Every text is slashes and then fields. -/
theorem exists_slashed (s : String) : ∃ slashes fields, (∀ f ∈ fields, '/' ∉ f.toList) ∧
    fields.head? ≠ some "" ∧ s = slashed slashes fields := by
  have hslashes : s.toList.takeWhile (· == '/') =
      List.replicate (s.toList.takeWhile (· == '/')).length '/' := by
    refine List.eq_replicate_iff.mpr ⟨rfl, fun c hc => ?_⟩
    exact beq_iff_eq.mp (List.mem_takeWhile_imp (p := (· == '/')) hc)
  have hs := List.takeWhile_append_dropWhile (p := (· == '/')) (l := s.toList)
  rw [hslashes] at hs
  refine ⟨(s.toList.takeWhile (· == '/')).length, ?_⟩
  cases hrest : s.toList.dropWhile (· == '/') with
  | nil =>
    refine ⟨[], fun f hf => absurd hf List.not_mem_nil, nofun, String.toList_inj.mp ?_⟩
    rw [hrest] at hs
    rw [toList_slashed]
    exact hs.symm
  | cons c cs =>
    have hc : ¬ (c == '/') = true := by
      have := List.head?_dropWhile_not (· == '/') s.toList
      rw [hrest] at this
      simpa using this
    have htexts : ((Text.splitBy (· == '/') (c :: cs)).map String.ofList).map String.toList =
        Text.splitBy (· == '/') (c :: cs) := by
      rw [List.map_map]
      exact (List.map_congr_left fun f _ => String.toList_ofList).trans (List.map_id _)
    refine ⟨(Text.splitBy (· == '/') (c :: cs)).map String.ofList, fun f hf hslash => ?_, ?_,
      String.toList_inj.mp ?_⟩
    · obtain ⟨field, hmem, rfl⟩ := List.mem_map.mp hf
      rw [String.toList_ofList] at hslash
      have := Text.not_sep_of_mem_splitBy _ _ field hmem _ hslash
      cases this
    · -- the first field begins with `c`
      rw [Text.splitBy, if_neg hc]
      split
      · exact fun h => absurd (congrArg (Option.map String.toList) h) (by simp)
      · exact fun h => absurd (congrArg (Option.map String.toList) h) (by simp)
    · rw [toList_slashed, htexts, Text.intercalate_splitBy, ← hrest]
      exact hs.symm

/-- **Reading a text** gives the path that it spells, and every text spells one. -/
theorem reads_iff : Reads s p ↔ parse s = p := by
  constructor
  · rintro ⟨slashes, plain, first⟩
    exact parse_slashed slashes plain first
  · rintro rfl
    obtain ⟨slashes, fields, plain, first, rfl⟩ := exists_slashed s
    rw [parse_slashed slashes plain first]
    exact .slashed slashes plain first

/-- **The normalised paths** are those that their own texts are read as. -/
theorem parse_text_iff : parse p.text = p ↔ p.Proper := by
  constructor
  · intro h
    exact h ▸ proper_parse p.text
  · intro hp
    by_cases hne : p.parts = []
    · obtain ⟨anchor, parts⟩ := p
      cases hne
      cases anchor <;> decide
    · exact parse_text hp hne

end Path

namespace JobRecord

variable {shared : Json} {r : JobRecord} {job : Job}

theorem proper_of_path {artifact : Json} {found : Path} (hp : path artifact = .ok found) :
    found.Proper := by
  unfold path at hp
  split at hp
  case h_1 =>
    cases hp
    exact Path.proper_parse _
  case h_2 => cases hp

/-- A record with names and a normalised path is read as it is written. -/
theorem ofJson_of_proper (hname : r.displayName.isVacant = false)
    (hentry : r.entrySymbol.isVacant = false) (hp : r.artifact.Proper)
    (hshared : shared ≠ .null → path shared = .ok r.artifact) :
    ofJson r.toJson shared = .ok r := by
  have hdisplay : member r.toJson "display_name" = .ok r.displayName := rfl
  have hsymbol : member r.toJson "entry_symbol" = .ok r.entrySymbol := rfl
  have hartifact : member r.toJson "artifact" = .ok (.text r.artifact.text) := rfl
  have hpath : path (.text r.artifact.text) = .ok r.artifact :=
    congrArg Except.ok (Path.parse_text_iff.mpr hp)
  -- wherever the path is taken from, the names are found in order
  have hchecked : (if r.displayName.isVacant then .error (.emptyName "display_name")
      else if r.entrySymbol.isVacant then .error (.emptyName "entry_symbol")
      else .ok ⟨r.displayName, r.entrySymbol, r.artifact⟩ :
        Except RecordFault JobRecord) = .ok r := by
    rw [hname, hentry]
    rfl
  unfold ofJson
  rw [hdisplay, hsymbol, except_bind_ok_iff]
  refine ⟨r.displayName, rfl, except_bind_ok_iff.mpr ⟨r.entrySymbol, rfl, ?_⟩⟩
  dsimp only
  split
  case h_1 =>
    exact except_bind_ok_iff.mpr ⟨_, hartifact, except_bind_ok_iff.mpr ⟨_, hpath, hchecked⟩⟩
  case h_2 hv =>
    exact except_bind_ok_iff.mpr ⟨_, rfl, except_bind_ok_iff.mpr ⟨_, hshared hv, hchecked⟩⟩

/-- A job with text names is written as its record is. -/
theorem toJson_of_job? (hj : r.job? = some job) : job.toJson = r.toJson := by
  have htext : ∀ {v : Json} {s : String}, v.text? = some s → v = .text s := by
    intro v s hv
    cases v with
    | literal l =>
      cases l with
      | whole t => exact congrArg Json.text (Option.some.inj hv)
      | ragged gs => cases hv
    | _ => cases hv
  obtain ⟨displayName, hdisplay, hj⟩ := Option.bind_eq_some_iff.mp hj
  obtain ⟨entrySymbol, hentry, hj⟩ := Option.bind_eq_some_iff.mp hj
  obtain rfl := Option.some.inj hj
  unfold Job.toJson toJson
  rw [htext hdisplay, htext hentry]

/-- **A job is read as it was written.** A job with two names, whose artifact's path comes from any
text, is written as a record that is read as this job. Whatever a job was read from, with or without
an artifact that is shared, what is then written of it is read as the same job again, whether the
artifact is shared or not, and is written the same if the names are texts: the path has been
normalised in the first reading, and reading a path's own text changes nothing. -/
theorem ofJson_toJson :
    (∀ displayName entrySymbol artifact : String, displayName ≠ "" → entrySymbol ≠ "" →
      let job : Job := ⟨displayName, entrySymbol, Path.parse artifact⟩
      ∃ r, ofJson job.toJson .null = .ok r ∧ r.job? = some job) ∧
    (∀ (value shared : Json) (r : JobRecord), ofJson value shared = .ok r →
      ofJson r.toJson .null = .ok r ∧ ofJson r.toJson shared = .ok r ∧
        ∀ job, r.job? = some job → job.toJson = r.toJson) ∧
    ∀ s : String, Path.Reads s (Path.parse s) ∧
      Path.parse (Path.parse s).text = Path.parse s := by
  refine ⟨fun displayName entrySymbol artifact hname hentry => ?_, fun value shared r ho => ?_,
    fun s => ⟨Path.reads_iff.mpr rfl, Path.parse_text_iff.mpr (Path.proper_parse s)⟩⟩
  · have hfull : ∀ {s : String}, s ≠ "" → (Json.text s).isVacant = false := by
      intro s hs
      refine List.isEmpty_eq_false_iff.mpr fun h => hs (String.toList_eq_nil_iff.mp ?_)
      exact List.map_eq_nil_iff.mp h
    intro job
    have hjob : (⟨.text displayName, .text entrySymbol, Path.parse artifact⟩ : JobRecord).job? =
      some job := rfl
    refine ⟨_, ?_, hjob⟩
    rw [toJson_of_job? hjob]
    exact ofJson_of_proper (hfull hname) (hfull hentry) (Path.proper_parse artifact)
      fun h => absurd rfl h
  · obtain ⟨hname, hentry, artifact, hpath, hshared⟩ := ofJson_ok ho
    have hp := proper_of_path hpath
    exact ⟨ofJson_of_proper hname hentry hp fun h => absurd rfl h,
      ofJson_of_proper hname hentry hp fun h => hshared h ▸ hpath, fun job => toJson_of_job?⟩

/-- A job as a manifest might describe it. -/
def sampleValue : Json :=
  .object [("display_name", .text "t"), ("entry_symbol", .text "e"), ("artifact", .text "./a//b/")]

/-- Two leading slashes are kept and so are the dots that lead up; the shared artifact is read in
the place of the job's own. -/
theorem ofJson_toJson_sample :
    ("t" ≠ "" ∧ "e" ≠ "" ∧
      ∃ r, ofJson (Job.toJson ⟨"t", "e", Path.parse "//a/./b//../c/"⟩) .null = .ok r ∧
        r.job? = some ⟨"t", "e", ⟨.doubleRoot, ["a", "b", "..", "c"]⟩⟩) ∧
      ∃ r, ofJson sampleValue (.text "///lib/.//c.bc") = .ok r ∧
        r.artifact = ⟨.root, ["lib", "c.bc"]⟩ ∧ ofJson r.toJson .null = .ok r := by
  have hown : Path.parse "//a/./b//../c/" = ⟨.doubleRoot, ["a", "b", "..", "c"]⟩ := by decide
  have hshared : Path.parse "///lib/.//c.bc" = ⟨.root, ["lib", "c.bc"]⟩ := by decide
  have hread : ofJson sampleValue (.text "///lib/.//c.bc") =
      .ok ⟨.text "t", .text "e", Path.parse "///lib/.//c.bc"⟩ := rfl
  refine ⟨⟨by decide, by decide, ?_⟩, _, hread, hshared, ?_⟩
  · rw [← hown]
    exact ofJson_toJson.1 "t" "e" "//a/./b//../c/" (by decide) (by decide)
  · exact (ofJson_toJson.2.1 _ _ _ hread).1

end JobRecord

end Assay
