import Assay.Proofs.RoundTrip
import Assay.Proofs.Unfinished
import Mathlib.Data.List.DropRight

/-!
# Appending to a report that is there

`load_append_iff`: a suite that is appended to a report comes after the suites that were read from
it before, exactly if the report's text has nothing but blanks after its last line end. Otherwise
the new line is joined to what stands there, and nothing is read of the two together: the suite is
lost, and so is the one before if it was only the line end that it lacked, `load_append_unended`.

What can be read of a report is a matter of its lines, `readContent_ok_iff`; appending leaves all of
them as they are but the last, `linesOf_append`.
-/

namespace Assay

namespace Text

variable {t u : String} {cs done tail : List Char}

/-! ## Bytes behind a text -/

/-- Bytes behind complete characters are read by themselves. -/
theorem decodeFrom_append {rest : Bytes} :
    ∀ {p : Pending} {bs : Bytes}, none ∉ decodeFrom p bs →
      decodeFrom p (bs ++ rest) = decodeFrom p bs ++ decodeFrom .idle rest
  | .idle, [], _ => rfl
  | .waiting .., [], h => absurd List.mem_cons_self h
  | p, b :: bs, h => by
    rw [decodeFrom_cons, List.mem_append, not_or] at h
    rw [List.cons_append, decodeFrom_cons, decodeFrom_cons, decodeFrom_append h.2,
      List.append_assoc]

/-- Text that is written behind a text is read after it. -/
theorem decode?_append {bs : Bytes} (ht : decode? bs = some t) (u : String) :
    decode? (bs ++ encode u) = some (t ++ u) := by
  unfold decode? at ht ⊢
  have hnone : none ∉ decodeFrom .idle bs := by
    intro hmem
    rw [mapM_eq_none rfl hmem] at ht
    cases ht
  unfold encode
  rw [decodeFrom_append hnone, decodeFrom_encode, List.mapM_append,
    mapM_eq_some (List.map_id (u.toList.map some))]
  cases hcs : (decodeFrom .idle bs).mapM id with
  | none =>
    rw [hcs] at ht
    cases ht
  | some cs =>
    rw [hcs] at ht
    cases ht
    show some (String.ofList (cs ++ u.toList)) = _
    rw [String.ofList_append, String.ofList_toList]

/-! ## The last line -/

/-- What stands after the last line feed. -/
def lastLine (cs : List Char) : List Char :=
  cs.rtakeWhile (· != '\n')

/-- The lines that have ended, with their ends. -/
def endedPart (cs : List Char) : List Char :=
  cs.rdropWhile (· != '\n')

theorem endedPart_append_lastLine (cs : List Char) : endedPart cs ++ lastLine cs = cs :=
  List.rdropWhile_append_rtakeWhile

theorem newline_not_mem_lastLine (cs : List Char) : '\n' ∉ lastLine cs := by
  intro hmem
  have hp := List.mem_rtakeWhile_imp hmem
  rw [bne_self_eq_false] at hp
  cases hp

theorem endedPart_eq (cs : List Char) : endedPart cs = [] ∨ ∃ l, endedPart cs = l ++ ['\n'] := by
  by_cases hne : endedPart cs = []
  · exact .inl hne
  · have hlast := List.rdropWhile_last_not _ cs hne
    rw [Bool.not_eq_true, bne_eq_false_iff_eq] at hlast
    refine .inr ⟨(endedPart cs).dropLast, ?_⟩
    rw [← hlast]
    exact (List.dropLast_append_getLast hne).symm

/-- A text is cut into lines where its lines have ended. -/
theorem newlineLines_endedPart (cs rest : List Char) :
    newlineLines (endedPart cs ++ rest) = newlineLines (endedPart cs) ++ newlineLines rest := by
  rcases endedPart_eq cs with hnil | ⟨l, hl⟩
  · rw [hnil]
    rfl
  · rw [hl, List.append_assoc, List.singleton_append, newlineLines_append_line]

theorem newlineLines_of_not_mem (hn : '\n' ∉ cs) (hne : cs ≠ []) : newlineLines cs = [cs] := by
  induction cs with
  | nil => exact absurd rfl hne
  | cons c cs ih =>
    rw [List.mem_cons, not_or] at hn
    rw [newlineLines, if_neg (Ne.symm hn.1)]
    cases cs with
    | nil => rfl
    | cons d ds => rw [ih hn.2 (List.cons_ne_nil d ds)]

/-- A character that is no line feed does not belong to the line end before it. -/
theorem unifyNewlines_append {c : Char} (hc : c ≠ '\n') (more : List Char) (cs : List Char) :
    unifyNewlines (cs ++ c :: more) = unifyNewlines cs ++ unifyNewlines (c :: more) := by
  fun_induction unifyNewlines cs
  case case1 => rfl
  case case2 cs ih => rw [List.cons_append, List.cons_append, unifyNewlines, ih, List.cons_append]
  case case3 b cs h ih =>
    have hb : ∀ rest, b = '\r' → cs ++ c :: more = '\n' :: rest → False := by
      intro rest hb hrest
      cases cs with
      | nil => exact hc (List.cons.inj hrest).1
      | cons d cs => exact h cs hb (by rw [(List.cons.inj hrest).1])
    rw [List.cons_append, unifyNewlines_cons hb, ih, List.cons_append]

/-! ## Blanks -/

theorem isBlank_of_isSpace {c : Char} (h : Json.isSpace c = true) : isBlank c = true := by
  unfold Json.isSpace at h
  simp only [Bool.or_eq_true, decide_eq_true_eq] at h
  rcases h with ((rfl | rfl) | rfl) | rfl <;> decide

/-- What begins and ends with something visible is trimmed in front of it only. -/
theorem trim_append {first last : Char} (hf : ¬ isBlank first = true) (hl : ¬ isBlank last = true)
    (before mid : List Char) :
    trim (before ++ (first :: mid ++ [last])) =
      before.dropWhile isBlank ++ (first :: mid ++ [last]) := by
  have hfront : (before ++ (first :: mid ++ [last])).dropWhile isBlank =
      before.dropWhile isBlank ++ (first :: mid ++ [last]) := by
    rw [List.dropWhile_append, List.cons_append, List.dropWhile_cons_of_neg hf]
    split
    case isTrue hnil => rw [List.isEmpty_iff.mp hnil, List.nil_append]
    case isFalse => rfl
  unfold trim trimBy
  rw [hfront, List.reverse_append, List.reverse_append, List.reverse_singleton,
    List.singleton_append, List.cons_append, List.dropWhile_cons_of_neg hl, List.reverse_cons,
    List.reverse_append, List.reverse_reverse, List.reverse_reverse, List.append_assoc]

end Text

namespace Disk

variable {d : Disk} {aim : Aim} {links : Nat} {loc q : Location} {names : List String}
  {path : String} {content : Text.Bytes}

/-! ## A file that is there -/

/-- A walk that ends with a slash does not lead to a file. -/
theorem not_file_of_slash (hlast : names.getLast? = some finalSlash) :
    walk d aim links loc names ≠ .ok (.entry q (.file content)) := by
  intro h
  have hrest : ∀ {name : String} {rest : List String}, (name :: rest).getLast? = some finalSlash →
      name ≠ finalSlash → rest.getLast? = some finalSlash := by
    intro name rest hl hne
    cases rest with
    | nil => exact absurd (Option.some.inj hl) hne
    | cons next rest => rwa [List.getLast?_cons_cons] at hl
  have hname : ∀ {name : String},
      ¬ (decide (name = finalSlash) || decide (name = ".")) = true → name ≠ finalSlash := by
    rintro _ hskip rfl
    exact hskip rfl
  fun_induction walk d aim links loc names
  case case1 => cases hlast
  case case2 name rest hskip ih =>
    cases rest with
    | nil =>
      rw [walk] at h
      cases h
    | cons next rest => exact ih (by rwa [List.getLast?_cons_cons] at hlast) h
  case case3 rest hskip ih => exact ih (hrest hlast (by decide)) h
  case case8 hskip _ _ _ _ ih => exact ih (hrest hlast (hname hskip)) h
  case case9 hskip _ _ _ _ _ hempty =>
    have hl := hrest hlast (hname hskip)
    rw [List.isEmpty_iff.mp hempty] at hl
    cases hl
  case case13 hskip _ _ _ _ _ _ _ _ ih =>
    refine ih ?_ h
    rw [List.getLast?_append, hrest hlast (hname hskip)]
    rfl
  all_goals cases h

/-- Whoever wants to write to a file finds it where others do. -/
theorem walk_content_of_file (h : walk d .target links loc names = .ok (.entry q (.file content))) :
    walk d .content links loc names = .ok (.entry q (.file content)) := by
  -- No file is behind a slash, so that the walk is not cut off there.
  have hslash : ∀ (front : List String) {links : Nat} {loc : Location} {rest : List String},
      walk d .target links loc (front ++ rest) = .ok (.entry q (.file content)) →
        ¬ (decide (Aim.content = .content) && decide (rest = [finalSlash])) = true := by
    intro front links loc rest hw hc
    rw [decide_eq_true rfl, Bool.true_and, decide_eq_true_eq] at hc
    refine not_file_of_slash ?_ hw
    rw [hc, List.getLast?_append]
    rfl
  fun_induction walk d .target links loc names
  case case1 => cases h
  case case2 hskip ih => rw [walk, if_pos hskip, ih h]
  case case3 rest hskip ih => rw [walk, if_neg hskip, if_pos rfl, ih h]
  case case8 hskip hup _ hlong hget ih =>
    rw [walk, if_neg hskip, if_neg hup, if_neg (hslash [] h), if_neg hlong, hget]
    exact ih h
  case case9 hskip hup _ hlong _ hget hempty =>
    rw [walk, if_neg hskip, if_neg hup, List.isEmpty_iff.mp hempty, if_neg (content_ne .content),
      if_neg hlong, hget]
    exact h
  case case13 hskip hup _ hlong target hget hitself links start ih =>
    rw [walk, if_neg hskip, if_neg hup, if_neg (hslash _ h), if_neg hlong, hget]
    dsimp only
    rw [if_neg (by simp)]
    exact ih h
  all_goals cases h

/-- A file whose content is another is found where it was. -/
theorem walk_rewritten (h : walk d aim links loc names = .ok (.entry q (.file content)))
    (new : Text.Bytes) :
    walk (d.insert q (.file new)) aim links loc names = .ok (.entry q (.file new)) := by
  have hfile := get?_of_walk Entry.noConfusion h
  have hq : q ≠ [] := by
    rintro rfl
    rw [get?_root] at hfile
    cases hfile
  have hold : ∀ e, d.get? q = some e → ∃ content, e = .file content := by
    intro e he
    exact ⟨content, Option.some.inj (he.symm.trans hfile)⟩
  exact walk_kept (keepsWays_insert hold _) (.inr ⟨content, new, rfl, rfl, get?_insert_self hq⟩) h

variable {p : Path}

theorem find_content_of_file (hp : p.Proper)
    (hf : d.find .target p.text = .ok (.entry q (.file content))) :
    d.find .content p.text = .ok (.entry q (.file content)) := by
  rw [find_text d _ hp] at hf ⊢
  split at hf
  case isTrue => cases hf
  case isFalse hfits =>
    rw [if_neg hfits]
    exact walk_content_of_file hf

theorem find_rewritten (hp : p.Proper)
    (hf : d.find aim p.text = .ok (.entry q (.file content))) (new : Text.Bytes) :
    (d.insert q (.file new)).find aim p.text = .ok (.entry q (.file new)) := by
  rw [find_text d _ hp] at hf
  rw [find_text _ _ hp]
  split at hf
  case isTrue => cases hf
  case isFalse hfits =>
    rw [if_neg hfits]
    exact walk_rewritten hf new

/-- A file is in a directory. -/
theorem directoryAt?_parent_of_file (hp : p.Proper)
    (hf : d.find .target p.text = .ok (.entry q (.file content))) :
    ∃ q, d.directoryAt? p.parent = some q := by
  rw [find_text d _ hp] at hf
  split at hf
  case isTrue => cases hf
  case isFalse hfits =>
    have hfits := Nat.le_of_not_lt hfits
    have hne : p.parts ≠ [] := by
      intro hnil
      rw [hnil, walk] at hf
      cases hf
    have hname := hp.name hne
    rw [Path.parts_eq_concat hne, walk_snoc hname.1] at hf
    split at hf
    case h_1 links q hr =>
      have hparent := Nat.le_trans (Path.utf8ByteSize_parent_le hp) hfits
      exact ⟨q, (directoryAt?_eq_some_iff hp.parent).mpr ⟨hparent, links, hr⟩⟩
    case h_2 => cases hf

theorem hasNull_parent (hn : hasNull p.text = false) : hasNull p.parent.text = false := by
  by_cases hne : p.parent.parts = []
  · obtain ⟨anchor, parts⟩ := p
    rw [show Path.parent ⟨anchor, parts⟩ = ⟨anchor, []⟩ from congrArg (Path.mk anchor) hne]
    cases anchor <;> rfl
  · have hmem : ∀ {s : String}, hasNull s = false ↔ Char.ofNat 0 ∉ s.toList := by
      intro s
      rw [hasNull, ← Bool.not_eq_true, List.contains_iff_mem]
    rw [hmem, Path.text_of_parent hne, String.toList_append, String.toList_append] at hn
    rw [hmem]
    exact fun h => hn (List.mem_append_left _ (List.mem_append_left _ h))

end Disk

namespace Report

open Assay.Action (Returns Raises)

variable {path : Path} {content : Text.Bytes} {text : String} {s : Suite} {found : List Suite}
  {h : Host} {w : World} {depth : Nat}

/-! ## What is read -/

/-- The lines that a text is read as. -/
def linesOf (text : String) : List (List Char) :=
  Text.newlineLines (Text.unifyNewlines text.toList)

/-- **A report is read** exactly if it is text and none of its lines is fatal, and then its suites
are those of its lines. -/
theorem readContent_ok_iff : ((readContent depth path content).run h w).1 = .ok found ↔
    ∃ text, Text.decode? content = some text ∧ (∀ line ∈ linesOf text, ¬ IsFatal depth line) ∧
      found = (linesOf text).flatMap (suitesOf depth) := by
  unfold readContent
  cases hd : Text.decode? content with
  | none =>
    refine iff_of_false (fun hok => ?_) nofun
    dsimp only at hok
    rw [Action.bind_run] at hok
    split at hok
    · cases hok
    · cases hok
  | some text =>
    dsimp only
    by_cases hf : ∀ line ∈ linesOf text, ¬ IsFatal depth line
    · obtain ⟨_, hfound, rfl⟩ := readLines_returns path hf h w
      rw [← linesOf, hfound, Except.ok.injEq]
      exact ⟨fun he => ⟨text, rfl, hf, he.symm⟩, fun ⟨_, ht, _, he⟩ => by cases ht; exact he.symm⟩
    · have hex : ∃ line ∈ linesOf text, IsFatal depth line := by
        by_contra hall
        exact hf fun line hl hfatal => hall ⟨line, hl, hfatal⟩
      obtain ⟨e, he⟩ := readLines_raises path hex h w
      rw [← linesOf, he]
      refine iff_of_false nofun ?_
      rintro ⟨_, ht, hfine, -⟩
      cases ht
      exact hf hfine

/-! ## A line more -/

/-- What stands after the last line end of a text. -/
def unended (text : String) : List Char :=
  Text.lastLine (Text.unifyNewlines text.toList)

/-- The lines of a text that have ended. -/
def ended (text : String) : List (List Char) :=
  Text.newlineLines (Text.endedPart (Text.unifyNewlines text.toList))

theorem linesOf_eq (text : String) :
    linesOf text = ended text ++ Text.newlineLines (unended text) := by
  unfold linesOf ended unended
  rw [← Text.newlineLines_endedPart, Text.endedPart_append_lastLine]

theorem print_eq (s : Suite) : ∃ mid, s.toJson.print = '\x7b' :: mid ++ ['\x7d'] :=
  ⟨_, by rw [Suite.toJson, Json.print]⟩

/-- No line ends within the text of a suite. -/
theorem not_mem_print {c : Char} (hs : s.Recordable) (hc : ¬ Json.IsVisible c) :
    c ∉ s.toJson.print :=
  fun hmem => hc (Json.isVisible_print (hs.plain 0) c hmem)

theorem unifyNewlines_line (hs : s.Recordable) :
    Text.unifyNewlines (line s).toList = s.toJson.print ++ ['\n'] := by
  rw [line, String.toList_append, Json.render, String.toList_ofList]
  refine Text.unifyNewlines_eq_self fun hmem => ?_
  rcases List.mem_append.mp hmem with hmem | hmem
  · exact not_mem_print hs (by decide) hmem
  · exact absurd (List.mem_singleton.mp hmem) (by decide)

/-- **Appending joins** the text of the suite to what stands after the last line end. -/
theorem linesOf_append (hs : s.Recordable) (text : String) :
    linesOf (text ++ line s) = ended text ++ [unended text ++ s.toJson.print] := by
  have hn : '\n' ∉ unended text ++ s.toJson.print := by
    rw [List.mem_append, not_or]
    exact ⟨Text.newline_not_mem_lastLine _, not_mem_print hs (by decide)⟩
  have hjoin : Text.unifyNewlines (text ++ line s).toList =
      Text.endedPart (Text.unifyNewlines text.toList) ++
        (unended text ++ s.toJson.print ++ '\n' :: []) := by
    obtain ⟨mid, hmid⟩ := print_eq s
    have hhead : (line s).toList = '\x7b' :: (mid ++ ['\x7d'] ++ ['\n']) := by
      rw [line, String.toList_append, Json.render, String.toList_ofList, hmid]
      rfl
    rw [String.toList_append, hhead, Text.unifyNewlines_append (by decide), ← hhead,
      unifyNewlines_line hs,
      ← List.append_assoc, ← List.append_assoc, ← List.append_assoc, unended,
      Text.endedPart_append_lastLine]
  unfold linesOf ended
  rw [hjoin, Text.newlineLines_endedPart, Text.newlineLines_append_newline hn,
    Text.newlineLines_nil]

/-- What is unended counts as a line if there is anything of it. -/
theorem flatMap_unended (text : String) :
    (Text.newlineLines (unended text)).flatMap (suitesOf depth) =
      suitesOf depth (unended text) := by
  have hn : '\n' ∉ unended text := Text.newline_not_mem_lastLine _
  by_cases hne : unended text = []
  · rw [hne]
    rfl
  · rw [Text.newlineLines_of_not_mem hn hne, List.flatMap_singleton]

theorem suitesOf_blank {before : List Char} (hb : ∀ c ∈ before, Text.isBlank c = true) :
    suitesOf depth before = [] := by
  have htrim : Text.trim before = [] := by
    unfold Text.trim Text.trimBy
    rw [List.dropWhile_eq_nil_iff.mpr hb]
    rfl
  unfold suitesOf
  rw [htrim]
  rfl

/-- The text of a suite is trimmed in front of it only. -/
theorem trim_append_print (s : Suite) (before : List Char) :
    Text.trim (before ++ s.toJson.print) = before.dropWhile Text.isBlank ++ s.toJson.print := by
  obtain ⟨mid, hmid⟩ := print_eq s
  rw [hmid]
  exact Text.trim_append (by decide) (by decide) before mid

theorem suiteOf_append_print {before : List Char} (hs : s.Recordable)
    (hdeep : Suite.depth ≤ depth) (hb : ∀ c ∈ before, Text.isBlank c = true) :
    suiteOf depth (Text.trim (before ++ s.toJson.print)) = .ok (some s) := by
  rw [trim_append_print, List.dropWhile_eq_nil_iff.mpr hb, List.nil_append, ← trim_print]
  exact suiteOf_print hs hdeep

/-- **Nothing is read of a suite** whose text comes after anything but blanks on its line. -/
theorem suitesOf_append_print {before : List Char} (hs : s.Recordable)
    (hb : ¬ ∀ c ∈ before, Text.isBlank c = true) :
    suitesOf depth (before ++ s.toJson.print) = [] := by
  have hopen : ∃ tail, s.toJson.print = Json.opening tail :=
    ⟨_, by rw [Suite.toJson, Json.print]; rfl⟩
  obtain ⟨tail, hopen⟩ := hopen
  have hcs : Json.skipSpace (before.dropWhile Text.isBlank) ≠ [] := by
    have hhead := List.head?_dropWhile_not Text.isBlank before
    cases hd : before.dropWhile Text.isBlank with
    | nil => exact absurd (List.dropWhile_eq_nil_iff.mp hd) hb
    | cons c cs =>
      rw [hd] at hhead
      have hspace : Json.isSpace c = false := by
        rw [← Bool.not_eq_true]
        intro hspace
        exact Bool.false_ne_true (hhead.symm.trans (Text.isBlank_of_isSpace hspace))
      rw [Json.skipSpace_cons hspace]
      exact List.cons_ne_nil c cs
  unfold suitesOf suiteOf
  rw [trim_append_print]
  have hnone := Json.not_parse_append (hs.plain 0) hopen hcs depth
  cases hp : Json.parse (String.ofList (before.dropWhile Text.isBlank ++ s.toJson.print)) depth with
  | ok v => exact absurd hp (hnone v)
  | error e =>
    cases e with
    | malformed => rfl
    | tooManyDigits count => rfl
    | tooDeep => rfl

/-! ## Reading what was appended to -/

section

variable (hs : s.Recordable) (hd : Text.decode? content = some text)

include hs hd

/-- What comes after the last line end is blank: the suite is added. -/
theorem readContent_blank (hdeep : Suite.depth ≤ depth)
    (hb : ∀ c ∈ unended text, Text.isBlank c = true)
    (hf : ((readContent depth path content).run h w).1 = .ok found) (h' : Host) (w' : World) :
    ((readContent depth path (content ++ Text.encode (line s))).run h' w').1 =
      .ok (found ++ [s]) := by
  obtain ⟨_, ht, hfine, rfl⟩ := readContent_ok_iff.mp hf
  rw [hd, Option.some.injEq] at ht
  subst ht
  have hlast := suiteOf_append_print hs hdeep hb
  refine readContent_ok_iff.mpr ⟨_, Text.decode?_append hd (line s), ?_, ?_⟩
  · intro l hl
    rw [linesOf_append hs, List.mem_append, List.mem_singleton] at hl
    rcases hl with hl | rfl
    · refine hfine l ?_
      rw [linesOf_eq]
      exact List.mem_append_left _ hl
    · rintro ⟨e, he⟩
      rw [hlast] at he
      cases he
  · have hadded : suitesOf depth (unended text ++ s.toJson.print) = [s] := by
      unfold suitesOf
      rw [hlast]
    rw [linesOf_append hs, linesOf_eq, List.flatMap_append, List.flatMap_append, flatMap_unended,
      suitesOf_blank hb, List.append_nil, List.flatMap_singleton, hadded]

/-- Something is unended: it is lost, and so is the suite. -/
theorem readContent_unended (hb : ¬ ∀ c ∈ unended text, Text.isBlank c = true)
    (hf : ((readContent depth path (content ++ Text.encode (line s))).run h w).1 = .ok found) :
    found = (ended text).flatMap (suitesOf depth) := by
  obtain ⟨_, ht, -, rfl⟩ := readContent_ok_iff.mp hf
  rw [Text.decode?_append hd, Option.some.injEq] at ht
  subst ht
  rw [linesOf_append hs, List.flatMap_append, List.flatMap_singleton,
    suitesOf_append_print hs hb, List.append_nil]

end

/-! ## Appending -/

/-- The new line is put behind what the file holds. -/
theorem append_read (hp : path.Proper) (hn : Disk.hasNull path.text = false)
    (hr : w.disk.read path.text = .ok content) (s : Suite) (h : Host) :
    ∃ w', (append path s).run h w = (.ok (), w') ∧
      w'.disk.read path.text = .ok (content ++ Text.encode (line s)) := by
  obtain ⟨loc, hf⟩ := Disk.read_ok_iff.mp hr
  obtain ⟨q, hq⟩ := Disk.directoryAt?_parent_of_file hp hf
  have hnp := Disk.hasNull_parent hn
  have hmade := OutputDir.makeDirectories_run (h := h) hnp
    (Disk.ensureDirectory_of_directoryAt hp.parent hnp hq)
  have hext : w.disk.extend path.text (Text.encode (line s)) =
      .ok (w.disk.insert loc (.file (content ++ Text.encode (line s)))) := by
    rw [Disk.extend, Disk.alter, Disk.find_content_of_file hp hf]
  obtain ⟨w', hrun, hdisk⟩ := append_run (s := s) hn hmade hext
  refine ⟨w', hrun, ?_⟩
  rw [hdisk]
  exact Disk.read_ok_iff.mpr ⟨loc, Disk.find_rewritten hp hf _⟩

theorem proper_samplePath : samplePath.Proper := by
  intro part hpart
  cases List.mem_singleton.mp hpart
  exact ⟨by decide, by decide, by decide⟩

/-- **The suite is lost** if something stands after the last line end, and what stands there is lost
with it. -/
theorem load_append_unended (hp : path.Proper) (hn : Disk.hasNull path.text = false)
    (hr : w.disk.read path.text = .ok content) (hd : Text.decode? content = some text)
    (hb : ¬ ∀ c ∈ unended text, Text.isBlank c = true) (hs : s.Recordable) (h : Host) :
    ∃ w', (append path s).run h w = (.ok (), w') ∧
      ∀ found, ((load path).run h w').1 = .ok found →
        found = (ended text).flatMap (suitesOf h.maxDepth) := by
  obtain ⟨w', hrun, hr'⟩ := append_read hp hn hr s h
  refine ⟨w', hrun, fun found hload => ?_⟩
  rw [load_of_read hn hr'] at hload
  exact readContent_unended hs hd hb hload

end Report

end Assay
