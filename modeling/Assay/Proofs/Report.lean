import Assay.Proofs.Action
import Assay.Proofs.Encoding
import Assay.Proofs.Suite
import Assay.Proofs.Verification
import Assay.Report

/-!
# Reading reports

`load_lines`: a report that is made of complete lines is read line by line. Of every line the suites
that it holds are returned, in order, and a line that holds none is skipped; but a line that is
`Fatal` costs all of them. These are the lines whose bytes are no text, those with a number of too
many digits, and those that are nested too deeply. Nothing else that a line can hold is fatal.

A line that was written for a suite holds that suite and nothing else: `suitesIn_render`.
-/

namespace Assay

namespace Disk

variable {d : Disk} {path : String} {content : Text.Bytes}

/-- What is read is the content of a file. -/
theorem read_ok_iff :
    d.read path = .ok content ↔ ∃ loc, d.find .target path = .ok (.entry loc (.file content)) := by
  unfold read
  constructor
  · intro h
    split at h
    case h_1 loc c hf =>
      cases h
      exact ⟨loc, hf⟩
    all_goals cases h
  · rintro ⟨loc, hf⟩
    rw [hf]

theorem exists?_of_entry {loc : Location} {e : Entry} (hn : hasNull path = false)
    (hf : d.find .target path = .ok (.entry loc e)) : d.exists? path = .ok true := by
  unfold exists? look
  rw [hn, if_neg Bool.false_ne_true, hf]
  rfl

end Disk

namespace Report

open Assay.Action (Returns Raises)

variable {depth : Nat} {path : Path} {line : List Char} {s : Suite} {h : Host} {w w' : World}

/-! ## One line -/

/-- The suites of a line: none or one. -/
def suitesOf (depth : Nat) (line : List Char) : List Suite :=
  match suiteOf depth (Text.trim line) with
  | .ok (some s) => [s]
  | _ => []

/-- The line cannot be read, and cannot be skipped. -/
def IsFatal (depth : Nat) (line : List Char) : Prop :=
  ∃ e, suiteOf depth (Text.trim line) = .error e

theorem suiteOf_nil (depth : Nat) : suiteOf depth [] = .ok none := rfl

/-- A line that holds a suite is read without a word. -/
theorem readLine_of_suite (path : Path) (hs : suiteOf depth (Text.trim line) = .ok (some s))
    (h : Host) (w : World) : (readLine depth path line).run h w = (.ok [s], w) := by
  have hne : (Text.trim line).isEmpty = false := by
    cases hl : Text.trim line with
    | nil =>
      rw [hl, suiteOf_nil] at hs
      cases hs
    | cons c cs => rfl
  unfold readLine
  dsimp only
  rw [hne, if_neg Bool.false_ne_true, hs]
  rfl

/-- A line that is not fatal is read, and what is no suite is skipped. -/
theorem readLine_returns (path : Path) (hf : ¬ IsFatal depth line) :
    Returns (readLine depth path line) (· = suitesOf depth line) := by
  unfold suitesOf readLine
  dsimp only
  cases hs : suiteOf depth (Text.trim line) with
  | error e => exact absurd ⟨e, hs⟩ hf
  | ok found =>
    cases hl : (Text.trim line).isEmpty with
    | true =>
      have hnone : found = none := by
        rw [List.isEmpty_iff.mp hl, suiteOf_nil, Except.ok.injEq] at hs
        exact hs.symm
      rw [hnone, if_pos rfl]
      exact Returns.pure rfl
    | false =>
      rw [if_neg Bool.false_ne_true]
      cases found with
      | some s => exact Returns.pure rfl
      | none =>
        refine (Returns.ofExcept rfl rfl).bind ?_
        rintro _ rfl
        exact (Action.returns_log _ _ _).seq fun _ => Returns.pure rfl

theorem readLine_raises (path : Path) (hf : IsFatal depth line) :
    Raises (readLine depth path line) := by
  obtain ⟨e, he⟩ := hf
  have hne : (Text.trim line).isEmpty = false := by
    cases hl : Text.trim line with
    | nil =>
      rw [hl, suiteOf_nil] at he
      cases he
    | cons c cs => rfl
  unfold readLine
  dsimp only
  rw [hne, if_neg Bool.false_ne_true, he]
  exact (Raises.ofExcept rfl).bind _

/-! ## All lines -/

theorem readLines_returns (path : Path) {lines : List (List Char)}
    (hf : ∀ line ∈ lines, ¬ IsFatal depth line) :
    Returns (readLines depth path lines) (· = lines.flatMap (suitesOf depth)) := by
  refine (Returns.mapM lines fun line hl => readLine_returns path (hf line hl)).bind ?_
  rintro _ rfl
  exact Returns.pure List.flatMap_def.symm

theorem readLines_raises (path : Path) {lines : List (List Char)}
    (hf : ∃ line ∈ lines, IsFatal depth line) : Raises (readLines depth path lines) :=
  (Raises.mapM (fun _ => readLine_raises path)
    (fun _ hl h w => (readLine_returns path hl h w).imp fun _ ha => ⟨ha.1, trivial⟩)
    lines hf).bind _

/-! ## Bytes -/

/-- What makes the bytes of a line fatal: they are no text, they hold a number of too many digits,
or a value that is nested too deeply. Carriage returns cut a line further. -/
inductive Fatal (depth : Nat) (b : Text.Bytes) : Prop where
  | undecodable (hb : Text.decode? b = none)
  | numeral {t : String} {line : List Char} {count : Nat} (ht : Text.decode? b = some t)
      (hl : line ∈ Text.piecesOf t)
      (hj : Json.parse (String.ofList (Text.trim line)) depth = .error (.tooManyDigits count))
  | nesting {t : String} {line : List Char} (ht : Text.decode? b = some t)
      (hl : line ∈ Text.piecesOf t)
      (hj : Json.parse (String.ofList (Text.trim line)) depth = .error .tooDeep)

/-- The suites that the bytes of a line hold. -/
def suitesIn (depth : Nat) (b : Text.Bytes) : List Suite :=
  match Text.decode? b with
  | some t => (Text.piecesOf t).flatMap (suitesOf depth)
  | none => []

theorem isFatal_iff : IsFatal depth line ↔
    (∃ count, Json.parse (String.ofList (Text.trim line)) depth = .error (.tooManyDigits count)) ∨
      Json.parse (String.ofList (Text.trim line)) depth = .error .tooDeep := by
  unfold IsFatal suiteOf
  cases Json.parse (String.ofList (Text.trim line)) depth with
  | ok v =>
    simp
  | error e =>
    cases e with
    | malformed => simp
    | tooManyDigits count => simp
    | tooDeep => simp

theorem fatal_iff {b : Text.Bytes} : Fatal depth b ↔
    Text.decode? b = none ∨
      ∃ t, Text.decode? b = some t ∧ ∃ line ∈ Text.piecesOf t, IsFatal depth line := by
  constructor
  · rintro (hb | ⟨ht, hl, hj⟩ | ⟨ht, hl, hj⟩)
    · exact .inl hb
    · exact .inr ⟨_, ht, _, hl, isFatal_iff.mpr (.inl ⟨_, hj⟩)⟩
    · exact .inr ⟨_, ht, _, hl, isFatal_iff.mpr (.inr hj)⟩
  · rintro (hb | ⟨t, ht, line, hl, hf⟩)
    · exact .undecodable hb
    · rcases isFatal_iff.mp hf with ⟨count, hj⟩ | hj
      · exact .numeral ht hl hj
      · exact .nesting ht hl hj

/-- The text of the bytes, if they are one. -/
def textOf (b : Text.Bytes) : String :=
  (Text.decode? b).getD ""

theorem decode?_textOf {b : Text.Bytes} (hb : Text.decode? b ≠ none) :
    Text.decode? b = some (textOf b) := by
  unfold textOf
  cases ht : Text.decode? b with
  | none => exact absurd ht hb
  | some t => rfl

theorem suitesIn_eq {b : Text.Bytes} (hb : Text.decode? b ≠ none) :
    suitesIn depth b = (Text.piecesOf (textOf b)).flatMap (suitesOf depth) := by
  unfold suitesIn
  rw [decode?_textOf hb]

/-- The bytes of complete lines that are each a text are read line by line. -/
theorem readContent_texts (path : Path) {bs : List Text.Bytes}
    (hbs : ∀ b ∈ bs, Text.decode? b ≠ none) :
    readContent depth path (bs.flatMap fun b => b ++ [10]) =
      readLines depth path (bs.flatMap fun b => Text.piecesOf (textOf b)) := by
  have hts : bs.mapM Text.decode? = some (bs.map textOf) := by
    refine mapM_eq_some ?_
    rw [List.map_map]
    exact List.map_congr_left fun b hb => decode?_textOf (hbs b hb)
  unfold readContent
  rw [Text.decode?_lines, hts]
  show readLines depth path
    (Text.newlineLines (Text.unifyNewlines (String.toList (String.ofList _)))) = _
  rw [String.toList_ofList, Text.newlineLines_unifyNewlines_lines, List.flatMap_map]

theorem readContent_returns (path : Path) {bs : List Text.Bytes} (hbs : ∀ b ∈ bs, ¬ Fatal depth b) :
    Returns (readContent depth path (bs.flatMap fun b => b ++ [10]))
      (· = bs.flatMap (suitesIn depth)) := by
  have htexts : ∀ b ∈ bs, Text.decode? b ≠ none := fun b hb h => hbs b hb (.undecodable h)
  have hsuites : bs.flatMap (suitesIn depth) =
      (bs.flatMap fun b => Text.piecesOf (textOf b)).flatMap (suitesOf depth) := by
    rw [List.flatMap_assoc]
    exact List.flatMap_congr fun b hb => suitesIn_eq (htexts b hb)
  rw [readContent_texts path htexts, hsuites]
  refine readLines_returns path fun line hl hf => ?_
  obtain ⟨b, hb, hl⟩ := List.mem_flatMap.mp hl
  exact hbs b hb (fatal_iff.mpr (.inr ⟨_, decode?_textOf (htexts b hb), line, hl, hf⟩))

theorem readContent_raises (path : Path) {bs : List Text.Bytes} (hbs : ∃ b ∈ bs, Fatal depth b) :
    Raises (readContent depth path (bs.flatMap fun b => b ++ [10])) := by
  by_cases htexts : ∀ b ∈ bs, Text.decode? b ≠ none
  · obtain ⟨b, hb, hf⟩ := hbs
    rw [readContent_texts path htexts]
    rcases fatal_iff.mp hf with hnone | ⟨t, ht, line, hl, hf⟩
    · exact absurd hnone (htexts b hb)
    · rw [decode?_textOf (htexts b hb)] at ht
      cases ht
      exact readLines_raises path ⟨line, List.mem_flatMap.mpr ⟨b, hb, hl⟩, hf⟩
  · -- Whatever is read of the lines before, bytes that are no text end in a fault.
    obtain ⟨b, hb, hnone⟩ : ∃ b ∈ bs, Text.decode? b = none := by
      by_contra hall
      exact htexts fun b hb h => hall ⟨b, hb, h⟩
    unfold readContent
    rw [Text.decode?_lines, mapM_eq_none hnone hb]
    exact Raises.of_next fun _ => Raises.fail _

/-- A line without carriage returns holds one suite at most. -/
theorem suitesIn_of_line {b : Text.Bytes} {t : String} (hb : Text.decode? b = some t)
    (hn : '\n' ∉ t.toList) (hr : '\r' ∉ t.toList) : suitesIn depth b = suitesOf depth t.toList := by
  unfold suitesIn
  rw [hb]
  dsimp only
  rw [Text.piecesOf_eq_singleton hn hr, List.flatMap_singleton]

/-! ## Lines that were written -/

/-- The text of a suite, which is its line but for the end. -/
theorem trim_print (s : Suite) : Text.trim s.toJson.print = s.toJson.print := by
  obtain ⟨cs, hcs⟩ : ∃ cs, s.toJson.print = '\x7b' :: cs ++ ['\x7d'] :=
    ⟨_, by rw [Suite.toJson, Json.print]⟩
  have hopen : ¬ Text.isBlank '\x7b' = true := by decide
  have hclose : ¬ Text.isBlank '\x7d' = true := by decide
  unfold Text.trim Text.trimBy
  rw [hcs, List.cons_append, List.dropWhile_cons_of_neg hopen, ← List.cons_append,
    List.reverse_append, List.reverse_singleton, List.singleton_append,
    List.dropWhile_cons_of_neg hclose, List.reverse_cons, List.reverse_reverse]

theorem suiteOf_print (hs : s.Recordable) (hd : Suite.depth ≤ depth) :
    suiteOf depth (Text.trim s.toJson.print) = .ok (some s) := by
  have hparse : Json.parse (String.ofList s.toJson.print) depth = .ok s.toJson :=
    hs.parse_render hd
  rw [trim_print]
  unfold suiteOf
  rw [hparse]
  exact congrArg Except.ok (Suite.ofJson?_toJson s)

/-- The text of a suite is one line. -/
theorem piecesOf_render (hs : s.Recordable) :
    Text.piecesOf s.toJson.render = [s.toJson.print] := by
  have hvisible := Json.isVisible_print (hs.plain 0)
  have hline : ∀ c, ¬ Json.IsVisible c → c ∉ s.toJson.render.toList := by
    intro c hc hmem
    rw [Json.render, String.toList_ofList] at hmem
    exact hc (hvisible c hmem)
  rw [Text.piecesOf_eq_singleton (hline _ (by decide)) (hline _ (by decide)), Json.render,
    String.toList_ofList]

theorem suitesOf_print (hs : s.Recordable) (hd : Suite.depth ≤ depth) :
    suitesOf depth s.toJson.print = [s] := by
  unfold suitesOf
  rw [suiteOf_print hs hd]

/-- **A line that was written for a suite** holds this suite. -/
theorem suitesIn_render (hs : s.Recordable) (hd : Suite.depth ≤ depth) :
    suitesIn depth (Text.encode s.toJson.render) = [s] := by
  unfold suitesIn
  rw [Text.decode?_encode]
  dsimp only
  rw [piecesOf_render hs, List.flatMap_singleton, suitesOf_print hs hd]

theorem not_fatal_render (hs : s.Recordable) (hd : Suite.depth ≤ depth) :
    ¬ Fatal depth (Text.encode s.toJson.render) := by
  intro hf
  rcases fatal_iff.mp hf with hnone | ⟨t, ht, line, hl, e, he⟩
  · rw [Text.decode?_encode] at hnone
    cases hnone
  · rw [Text.decode?_encode] at ht
    cases ht
    rw [piecesOf_render hs, List.mem_singleton] at hl
    rw [hl, suiteOf_print hs hd] at he
    cases he

/-! ## Whole files -/

/-- A report that is there is read. -/
theorem load_of_read {content : Text.Bytes} (hn : Disk.hasNull path.text = false)
    (hr : w.disk.read path.text = .ok content) :
    (load path).run h w = (readContent h.maxDepth path content).run h w := by
  obtain ⟨loc, hf⟩ := Disk.read_ok_iff.mp hr
  unfold load
  rw [Action.bind_of_ok (Action.askDisk_run (Disk.exists?_of_entry hn hf))]
  show (Action.refuseNull path.text >>= _).run h w = _
  unfold Action.refuseNull
  rw [hn, if_neg Bool.false_ne_true, pure_bind, Action.bind_of_ok (Action.askDisk_run hr)]
  rfl

def samplePath : Path := ⟨.relative, ["report"]⟩

/-- A disk with this report on it. -/
def sampleDisk (content : Text.Bytes) : Disk := ⟨[(Disk.keyOf ["report"], .file content)], []⟩

def sampleSuite : Suite := ⟨"klee", 1, 1, 0, .verified, []⟩

def sampleLine : Text.Bytes := Text.encode sampleSuite.toJson.render

theorem recordable_sampleSuite : sampleSuite.Recordable where
  total := Number.isTellable_of_small (by decide)
  passed := Number.isTellable_of_small (by decide)
  failed := Number.isTellable_of_small (by decide)
  outcomes := fun _ h => nomatch h

theorem read_sampleDisk (content : Text.Bytes) :
    (sampleDisk content).read samplePath.text = .ok content := by
  have hfind : (sampleDisk content).find .target (Disk.hereDir.child "report").text =
      .ok (.entry ["report"] (.file content)) :=
    Disk.find_something Disk.proper_hereDir (by decide) (by decide)
      (Disk.directoryAt?_hereDir _) rfl (fun _ => Entry.noConfusion) .target
  exact Disk.read_ok_iff.mpr ⟨["report"], hfind⟩

end Report

end Assay
