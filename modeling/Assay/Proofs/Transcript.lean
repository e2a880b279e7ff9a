import Assay.Proofs.Json
import Assay.Proofs.Lines
import Assay.Proofs.Reader
import Mathlib.Data.Bool.AllAny

/-!
# Scripts are read back

A script that consists of records is read as the commands of these records, in order and with their
directories and variables, whatever has been printed: `read?_script`. The lines of the script that
come from what was printed, or from the exit code, are comments, `newlineLines_script`, and none of
them holds a line break of any kind.

A record is read line by line. Outside of the words of a command nothing but the marks of the record
itself is met: the parentheses of its group, the line ends, and comments that end with their line.
-/

namespace Assay.Shell

variable {s line : String} {ws ws' : List String} {v : String × String} {e : Entry}

/-! ## Lines of a record -/

/-- What is read of a line with these words. -/
def lineTokens (ws : List String) : List Token :=
  ws.map .word ++ [.newline]

/-- The line is read as these words. -/
def Writes (line : String) (ws : List String) : Prop :=
  tokenizer.drive (.bare none) (line.toList ++ ['\n']) = some (lineTokens ws, .bare none)

theorem writes_command (hne : ws ≠ []) : Writes (command ws) ws :=
  drive_line (forall₂_spells ws) (List.map_eq_nil_iff.not.mpr hne)

/-- A word in front of the line. -/
theorem writes_pair {t t' s s' : String} (h : Spells t s) (h' : Spells t' s') :
    Writes (t ++ " " ++ t') [s, s'] := by
  have hline := drive_line (.cons h (.cons h' .nil)) (List.cons_ne_nil _ _)
  have htext : (Text.joinWith " " [t, t']).toList = (t ++ " " ++ t').toList := by
    rw [Text.toList_joinWith, List.map_cons, List.map_singleton, List.intercalate_cons_cons,
      List.intercalate_singleton, String.toList_append, String.toList_append]
  rw [htext] at hline
  exact hline

theorem writes_cd (directory : String) : Writes ("cd " ++ word directory) ["cd", directory] := by
  have hcd : Spells "cd" "cd" := spells_harmless (by decide) (by decide)
  have hblank : "cd " = "cd" ++ " " := by decide
  rw [hblank]
  exact writes_pair hcd (spells_word directory)

theorem harmless_of_nameChar {c : Char} (hc : (c.isAlphanum || c = '_') = true) :
    isHarmless c = true ∧ c ≠ '=' := by
  rw [Bool.or_eq_true, decide_eq_true_eq] at hc
  refine ⟨?_, ?_⟩
  · unfold isHarmless
    rcases hc with hc | rfl
    · rw [hc, Bool.true_or]
    · rfl
  · rintro rfl
    rcases hc with hc | hc <;> exact absurd hc (by decide)

theorem harmless_of_isName (hn : isName s = true) :
    (∀ c ∈ s.toList, isHarmless c = true ∧ c ≠ '=') ∧ s.toList ≠ [] := by
  unfold isName at hn
  split at hn
  case h_1 => cases hn
  case h_2 c cs hs =>
    rw [Bool.and_eq_true, List.all_eq_true] at hn
    have hfirst : (c.isAlphanum || c = '_') = true := by
      rw [Bool.or_eq_true] at hn ⊢
      exact hn.1.imp_left fun ha => by rw [Char.isAlphanum, ha, Bool.true_or]
    rw [hs]
    refine ⟨fun d hd => ?_, List.cons_ne_nil c cs⟩
    rcases List.mem_cons.mp hd with rfl | hd
    · exact harmless_of_nameChar hfirst
    · exact harmless_of_nameChar (hn.2 d hd)

theorem writes_export (hn : isName v.1 = true) :
    Writes ("export " ++ Entry.assignment v) ["export", v.1 ++ "=" ++ v.2] := by
  obtain ⟨hname, hne⟩ := harmless_of_isName hn
  have hexport : Spells "export" "export" := spells_harmless (by decide) (by decide)
  have hblank : "export " = "export" ++ " " := by decide
  have heq : Spells "=" "=" := spells_harmless (by decide) (by decide)
  have hv := (spells_harmless (List.all_eq_true.mpr fun c hc => (hname c hc).1) hne).append heq
  rw [hblank]
  exact writes_pair hexport (hv.append (spells_word v.2))

theorem Writes.indented (h : Writes line ws) : Writes ("    " ++ line) ws := by
  have hindent : tokenizer.drive (.bare none) "    ".toList = some ([], .bare none) := rfl
  unfold Writes
  rw [String.toList_append, List.append_assoc]
  exact Machine.drive_append_silent hindent h

/-- The text of lines, each of which ends with a line feed. -/
def linesText (lines : List String) : List Char :=
  lines.flatMap fun l => l.toList ++ ['\n']

theorem toList_joinLines {lines : List String} (hne : lines ≠ []) :
    (Text.joinWith "\n" lines).toList ++ ['\n'] = linesText lines := by
  rw [Text.toList_joinWith, show "\n".toList = ['\n'] from rfl]
  unfold linesText
  induction lines with
  | nil => exact absurd rfl hne
  | cons l lines ih =>
    cases lines with
    | nil => rw [List.map_singleton, List.intercalate_singleton, List.flatMap_singleton]
    | cons l' lines =>
      rw [List.map_cons, List.map_cons, List.intercalate_cons_cons, List.append_assoc,
        List.flatMap_cons, List.append_assoc, List.append_assoc]
      exact congrArg (fun cs => l.toList ++ (['\n'] ++ cs)) (ih (List.cons_ne_nil l' lines))

theorem drive_linesText {lines : List String} {wss : List (List String)}
    (h : List.Forall₂ Writes lines wss) :
    tokenizer.drive (.bare none) (linesText lines) = some (wss.flatMap lineTokens, .bare none) := by
  unfold linesText
  induction h with
  | nil => rfl
  | cons hl _ ih =>
    rw [List.flatMap_cons, List.flatMap_cons]
    exact Machine.drive_append hl ih

/-! ## Commands -/

namespace Entry

/-- The entry can be written to a script: there is a command, and the variables have names. -/
structure Writable (e : Entry) : Prop where
  command : e.command ≠ []
  names : ∀ v ∈ e.environment, isName v.1 = true

/-- Where the command is run and with which variables, as commands. -/
def setting (e : Entry) : List (List String) :=
  (e.directory.toList.map fun d => ["cd", d]) ++
    e.environment.map fun v => ["export", v.1 ++ "=" ++ v.2]

def item (e : Entry) : Item :=
  if e.isGrouped then .group (e.setting ++ [e.command]) else .command e.command

/-- What is read of the command. -/
def tokens (e : Entry) : List Token :=
  if e.isGrouped then
    [.opens, .newline] ++ (e.setting ++ [e.command]).flatMap lineTokens ++ [.closes, .newline]
  else lineTokens e.command

theorem drive_commandLines (he : e.Writable) :
    tokenizer.drive (.bare none) (linesText e.commandLines) = some (e.tokens, .bare none) := by
  unfold commandLines tokens
  split
  case isFalse =>
    have hl := drive_linesText (.cons (writes_command he.command) .nil)
    rw [List.flatMap_singleton] at hl
    exact hl
  case isTrue =>
    dsimp only
    have hbody : List.Forall₂ Writes
        (((e.directory.toList.map fun d => "cd " ++ word d) ++
          e.environment.map (fun v => "export " ++ assignment v) ++
            [Shell.command e.command]).map ("    " ++ ·)) (e.setting ++ [e.command]) := by
      rw [List.forall₂_map_left_iff]
      refine List.rel_append (List.rel_append ?_ ?_)
        (.cons (writes_command he.command).indented .nil)
      · rw [List.forall₂_map_left_iff, List.forall₂_map_right_iff, List.forall₂_same]
        exact fun d _ => (writes_cd d).indented
      · rw [List.forall₂_map_left_iff, List.forall₂_map_right_iff, List.forall₂_same]
        exact fun v hv => (writes_export (he.names v hv)).indented
    have hopen : tokenizer.drive (.bare none) (linesText ["("]) =
        some ([.opens, .newline], .bare none) := rfl
    have hclose : tokenizer.drive (.bare none) (linesText [")"]) =
        some ([.closes, .newline], .bare none) := rfl
    unfold linesText
    rw [List.flatMap_append, List.flatMap_append]
    exact Machine.drive_append (Machine.drive_append hopen (drive_linesText hbody)) hclose

end Entry

/-! ## Groups -/

/-- Words that follow each other are collected. -/
theorem drive_words {place : List String → Place}
    (hp : ∀ ws s, grouper.step (place ws) (.word s) = some ([], place (ws ++ [s])))
    (ws ws' : List String) :
    grouper.drive (place ws) (ws'.map .word) = some ([], place (ws ++ ws')) := by
  induction ws' generalizing ws with
  | nil =>
    rw [List.append_nil]
    rfl
  | cons s ws' ih =>
    have hrest := ih (ws ++ [s])
    rw [List.append_assoc] at hrest
    exact Machine.drive_silent (hp ws s) hrest

theorem completed_of_ne_nil (hne : ws ≠ []) : completed ws = [ws] :=
  if_neg (List.isEmpty_eq_false_iff.mpr hne ▸ Bool.false_ne_true)

theorem drive_command (hne : ws ≠ []) :
    grouper.drive (.outside []) (lineTokens ws) = some ([.command ws], .outside []) := by
  have hend : grouper.step (.outside ws) .newline =
      some ((completed ws).map .command, .outside []) := rfl
  rw [completed_of_ne_nil hne] at hend
  exact Machine.drive_append_silent (drive_words (fun _ _ => rfl) [] ws) (Machine.drive_single hend)

theorem drive_inside {wss : List (List String)} (hne : ∀ ws ∈ wss, ws ≠ [])
    (done : List (List String)) :
    grouper.drive (.inside done []) (wss.flatMap lineTokens) =
      some ([], .inside (done ++ wss) []) := by
  induction wss generalizing done with
  | nil =>
    rw [List.append_nil]
    rfl
  | cons ws wss ih =>
    have hws := hne ws List.mem_cons_self
    have hend : grouper.step (.inside done ws) .newline =
        some ([], .inside (done ++ completed ws) []) := rfl
    rw [completed_of_ne_nil hws] at hend
    have hline : grouper.drive (.inside done []) (lineTokens ws) =
        some ([], .inside (done ++ [ws]) []) :=
      Machine.drive_append_silent (drive_words (fun _ _ => rfl) [] ws) (Machine.drive_single hend)
    have hrest := ih (fun ws' hmem => hne ws' (List.mem_cons_of_mem ws hmem)) (done ++ [ws])
    rw [List.append_assoc] at hrest
    rw [List.flatMap_cons]
    exact Machine.drive_append_silent hline hrest

namespace Entry

theorem setting_ne_nil (e : Entry) : ∀ ws ∈ e.setting, ws ≠ [] := by
  intro ws hws
  unfold setting at hws
  rcases List.mem_append.mp hws with hws | hws
  · obtain ⟨d, -, rfl⟩ := List.mem_map.mp hws
    exact List.cons_ne_nil _ _
  · obtain ⟨v, -, rfl⟩ := List.mem_map.mp hws
    exact List.cons_ne_nil _ _

theorem drive_tokens (he : e.Writable) :
    grouper.drive (.outside []) e.tokens = some ([e.item], .outside []) := by
  unfold tokens item
  split
  case isFalse => exact drive_command he.command
  case isTrue =>
    have hne : ∀ ws ∈ e.setting ++ [e.command], ws ≠ [] := by
      intro ws hws
      rcases List.mem_append.mp hws with hws | hws
      · exact e.setting_ne_nil ws hws
      · exact List.mem_singleton.mp hws ▸ he.command
    have hopen : grouper.drive (.outside []) [.opens, .newline] = some ([], .inside [] []) := rfl
    have hclose : grouper.drive (.inside (e.setting ++ [e.command]) []) [.closes, .newline] =
        some ([.group (e.setting ++ [e.command])], .outside []) := by
      have hstep : grouper.step (.inside (e.setting ++ [e.command]) []) .closes =
          some ([.group (e.setting ++ [e.command] ++ completed [])], .behind) := rfl
      have hnothing : completed [] = [] := rfl
      rw [hnothing, List.append_nil] at hstep
      exact Machine.drive_cons hstep (Machine.drive_single rfl)
    rw [List.append_assoc]
    exact Machine.drive_append_silent hopen
      (Machine.drive_append_silent (drive_inside hne []) hclose)

theorem assignment?_append (hn : isName v.1 = true) : assignment? (v.1 ++ "=" ++ v.2) = some v := by
  obtain ⟨hname, -⟩ := harmless_of_isName hn
  have hlist : (v.1 ++ "=" ++ v.2).toList = v.1.toList ++ '=' :: v.2.toList := by
    rw [String.toList_append, String.toList_append, List.append_assoc]
    rfl
  have htake : (v.1.toList ++ '=' :: v.2.toList).takeWhile (· ≠ '=') = v.1.toList := by
    have hall : ∀ c ∈ v.1.toList, decide (c ≠ '=') = true := fun c hc =>
      decide_eq_true (hname c hc).2
    rw [List.takeWhile_append_of_pos hall, List.takeWhile_cons_of_neg (by decide), List.append_nil]
  unfold assignment?
  rw [hlist]
  dsimp only
  rw [htake, List.drop_left]
  dsimp only
  rw [String.ofList_toList, String.ofList_toList, if_pos hn]

theorem directory?_setting (e : Entry) : directory? e.setting =
    (e.directory, e.environment.map fun v => ["export", v.1 ++ "=" ++ v.2]) := by
  obtain ⟨command, environment, directory⟩ := e
  cases directory with
  | some d => rfl
  | none =>
    -- an `export` is no change of directory
    cases environment with
    | nil => rfl
    | cons v rest => rfl

theorem export?_setting (he : e.Writable) :
    (e.environment.map fun v => ["export", v.1 ++ "=" ++ v.2]).mapM export? =
      some e.environment := by
  refine mapM_eq_some ?_
  rw [List.map_map]
  exact List.map_congr_left fun v hv => assignment?_append (he.names v hv)

/-- **What is written is read**: the command, its directory and its variables. -/
theorem entry?_item (he : e.Writable) : entry? e.item = some e := by
  unfold item
  split
  case isTrue =>
    unfold entry?
    dsimp only
    rw [List.getLast?_concat, List.dropLast_concat, directory?_setting]
    show ((e.environment.map fun v => ["export", v.1 ++ "=" ++ v.2]).mapM export? >>= _) = _
    rw [export?_setting he]
    rfl
  case isFalse hplain =>
    obtain ⟨command, environment, directory⟩ := e
    cases directory with
    | some d => exact absurd rfl hplain
    | none =>
      cases environment with
      | nil => rfl
      | cons v rest => exact absurd rfl hplain

end Entry

/-! ## Records -/

namespace Record

variable {r : Record} {records : List Record} {l : String}

/-- What is written of it. -/
def text (r : Record) : String :=
  record r.entry r.output

/-- The lines of what was printed and of the exit code. -/
def comments (r : Record) : List String :=
  r.output.elim [] commentLines

/-- The line is a comment, and it ends nowhere before its end, whatever counts as a line end. -/
def IsComment (line : String) : Prop :=
  ∃ rest, line.toList = '#' :: ' ' :: rest ∧ ∀ c ∈ rest, Text.isLineBreak c = false

theorem isComment_append {rest : String} (h : ∀ c ∈ rest.toList, Text.isLineBreak c = false) :
    IsComment ("# " ++ rest) := by
  refine ⟨rest.toList, ?_, h⟩
  rw [String.toList_append]
  rfl

theorem not_isLineBreak_exitCode (n : Int) :
    ∀ c ∈ ("exit code: " ++ toString n).toList, Text.isLineBreak c = false := by
  have hvisible : ∀ c, Json.IsVisible c → Text.isLineBreak c = false := by
    rintro c ⟨h32, h127⟩
    unfold Text.isLineBreak
    simp only [Bool.or_eq_false_iff, Bool.and_eq_false_iff, decide_eq_false_iff_not,
      beq_eq_false_iff_ne]
    omega
  have hmark : ∀ c ∈ "exit code: ".toList, Text.isLineBreak c = false :=
    List.all_iff_forall_prop.mp (by decide)
  intro c hc
  rw [String.toList_append, List.mem_append] at hc
  rcases hc with hc | hc
  · exact hmark c hc
  · exact hvisible c (Json.isVisible_integerText n c hc)

/-- **Whatever has been printed is a comment.** -/
theorem isComment_of_mem (hl : l ∈ r.comments) : IsComment l := by
  obtain ⟨entry, output⟩ := r
  cases output with
  | none => cases hl
  | some c =>
    rcases List.mem_append.mp hl with hl | hl
    · obtain ⟨line, hline, rfl⟩ := List.mem_map.mp hl
      obtain ⟨stream, -, hline⟩ := List.mem_flatMap.mp hline
      obtain ⟨cs, hcs, rfl⟩ := List.mem_map.mp hline
      refine isComment_append ?_
      rw [String.toList_ofList]
      exact Text.not_isLineBreak_of_mem_lines hcs
    · have hmark : "# exit code: " = "# " ++ "exit code: " := by decide
      rw [List.mem_singleton.mp hl, hmark, String.append_assoc]
      exact isComment_append (not_isLineBreak_exitCode c.exitCode)

theorem IsComment.newline_not_mem (hl : IsComment l) : '\n' ∉ l.toList := by
  obtain ⟨rest, heq, hrest⟩ := hl
  rw [heq]
  simp only [List.mem_cons, not_or]
  exact ⟨by decide, by decide, fun hmem => absurd (hrest _ hmem) (by decide)⟩

theorem toList_text (r : Record) :
    r.text.toList = linesText (r.entry.commandLines ++ r.comments) := by
  have hne : r.entry.commandLines ≠ [] := by
    unfold Entry.commandLines
    split <;> exact List.cons_ne_nil _ _
  show (Text.joinWith "\n" (r.entry.commandLines ++ r.comments) ++ "\n").toList = _
  rw [String.toList_append]
  exact toList_joinLines (List.append_ne_nil_of_left_ne_nil hne _)

/-- What is read of a record: its command and, of what was printed, nothing but the line ends. -/
def tokens (r : Record) : List Token :=
  r.entry.tokens ++ r.comments.map fun _ => .newline

theorem drive_text (hr : r.entry.Writable) :
    tokenizer.drive (.bare none) r.text.toList = some (r.tokens, .bare none) := by
  have hcomments : tokenizer.drive (.bare none) (linesText r.comments) =
      some (r.comments.flatMap fun _ => [.newline], .bare none) := by
    refine Machine.drive_flatMap fun l hl => ?_
    have hcomment := isComment_of_mem hl
    have hnewline := hcomment.newline_not_mem
    obtain ⟨rest, heq, -⟩ := hcomment
    rw [heq] at hnewline ⊢
    exact drive_comment fun hmem => hnewline (List.mem_cons_of_mem _ hmem)
  rw [← List.map_eq_flatMap] at hcomments
  rw [toList_text, linesText, List.flatMap_append]
  exact Machine.drive_append (r.entry.drive_commandLines hr) hcomments

theorem drive_tokens (hr : r.entry.Writable) :
    grouper.drive (.outside []) r.tokens = some ([r.entry.item], .outside []) := by
  have hcomments : grouper.drive (.outside []) (r.comments.map fun _ => .newline) =
      some ([], .outside []) := by
    induction r.comments with
    | nil => rfl
    | cons l ls ih => exact Machine.drive_silent rfl ih
  exact Machine.drive_append (r.entry.drive_tokens hr) hcomments

/-! ## Scripts -/

/-- The text of records one after the other. -/
def script (records : List Record) : String :=
  String.join (records.map text)

theorem toList_script (records : List Record) :
    (script records).toList = records.flatMap fun r => r.text.toList := by
  unfold script
  rw [String.toList_join, List.flatMap_map]

/-- **A script is read as the commands of its records**, in order. -/
theorem read?_script (hr : ∀ r ∈ records, r.entry.Writable) :
    read? (script records) = some (records.map Record.entry) := by
  have htokens : tokenizer.drive (.bare none) (script records).toList =
      some (records.flatMap tokens, .bare none) := by
    rw [toList_script]
    exact Machine.drive_flatMap fun r hmem => drive_text (hr r hmem)
  have hitems : grouper.drive (.outside []) (records.flatMap tokens) =
      some (records.map fun r => r.entry.item, .outside []) := by
    rw [List.map_eq_flatMap]
    exact Machine.drive_flatMap fun r hmem => drive_tokens (hr r hmem)
  have hentries : (records.map fun r => r.entry.item).mapM entry? =
      some (records.map Record.entry) := by
    refine mapM_eq_some ?_
    rw [List.map_map, List.map_map]
    exact List.map_congr_left fun r hmem => Entry.entry?_item (hr r hmem)
  unfold read?
  rw [Machine.run_of_drive htokens rfl]
  show (grouper.run (records.flatMap tokens) >>= _) = _
  rw [Machine.run_of_drive hitems rfl]
  exact hentries

example : read? "(\n    cd 'a b'\n    export N='#\n)'\n    ls -l\n)\n# ls\n# exit code: 0\n" =
    some [⟨["ls", "-l"], [("N", "#\n)")], some "a b"⟩] := by
  decide +kernel

/-- Where a line has ended, the text is cut. -/
theorem newlineLines_linesText_append (ls : List String) (rest : List Char) :
    Text.newlineLines (linesText ls ++ rest) =
      Text.newlineLines (linesText ls) ++ Text.newlineLines rest := by
  rcases List.eq_nil_or_concat ls with rfl | ⟨ls, l, rfl⟩
  · rfl
  · unfold linesText
    rw [List.concat_eq_append, List.flatMap_append, List.flatMap_singleton, ← List.append_assoc,
      List.append_assoc, List.singleton_append, Text.newlineLines_append_line]

theorem newlineLines_linesText {ls : List String} (h : ∀ l ∈ ls, '\n' ∉ l.toList) :
    Text.newlineLines (linesText ls) = ls.map String.toList := by
  unfold linesText
  induction ls with
  | nil => rfl
  | cons l ls ih =>
    rw [List.flatMap_cons, List.append_assoc, List.singleton_append,
      Text.newlineLines_append_newline (h l List.mem_cons_self),
      ih fun l' hl' => h l' (List.mem_cons_of_mem l hl')]
    rfl

/-- **The lines of a script**, cut at line feeds, are those of the commands and, after each command,
one comment for each line that was printed and one for the exit code. -/
theorem newlineLines_script (records : List Record) :
    Text.newlineLines (script records).toList = records.flatMap fun r =>
      Text.newlineLines (record r.entry none).toList ++ r.comments.map String.toList := by
  have hplain : ∀ e : Entry, (record e none).toList = linesText e.commandLines := by
    intro e
    have htext := toList_text ⟨e, none⟩
    rw [show (⟨e, none⟩ : Record).comments = [] from rfl, List.append_nil] at htext
    exact htext
  rw [toList_script]
  induction records with
  | nil => rfl
  | cons r records ih =>
    have hcomments : Text.newlineLines (linesText r.comments) = r.comments.map String.toList :=
      newlineLines_linesText fun l hl => (isComment_of_mem hl).newline_not_mem
    have happend : r.text.toList = linesText r.entry.commandLines ++ linesText r.comments := by
      rw [toList_text]
      exact List.flatMap_append
    rw [List.flatMap_cons, List.flatMap_cons, ← ih, hplain, ← hcomments,
      ← newlineLines_linesText_append, ← happend, toList_text, newlineLines_linesText_append]

end Record

end Assay.Shell
