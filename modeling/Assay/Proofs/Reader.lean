import Assay.Shell.Script
import Mathlib.Data.Bool.AllAny
import Mathlib.Data.List.Forall2

/-!
# A reader of scripts

What a shell makes of a script, as far as this can be said without running anything: quotes,
comments and groups. `tokenizer` cuts the text into words and marks. It refuses every character that
would do more than to stand for itself. `grouper` puts the words together to commands and the
commands between parentheses to groups, and `entry?` says which command is run by an item, where,
and with which variables.

`drive_line` is what it says of the words that are written to a script: a line of them is read as
these words and nothing else. It rests on `spells_word`, by which a quoted word is read as the word
wherever it stands.
-/

namespace Assay.Shell

/-! ## Machines -/

/-- Reads a list from left to right. Every step puts something out or refuses what it is given, and
at the end the rest is put out or what has been read is refused. -/
structure Machine (α β σ : Type) where
  start : σ
  step : σ → α → Option (List β × σ)
  finish : σ → Option (List β)

namespace Machine

variable {α β σ : Type} {m : Machine α β σ} {s s' s'' : σ} {as as' : List α} {bs bs' : List β}

/-- What is put out on the way, and where the way leads. -/
def drive (m : Machine α β σ) (s : σ) : List α → Option (List β × σ)
  | [] => some ([], s)
  | a :: as => do
    let (bs, s) ← m.step s a
    let (bs', s) ← m.drive s as
    return (bs ++ bs', s)

def run (m : Machine α β σ) (as : List α) : Option (List β) := do
  let (bs, s) ← m.drive m.start as
  let bs' ← m.finish s
  return bs ++ bs'

theorem drive_cons {a : α} (ha : m.step s a = some (bs, s'))
    (has : m.drive s' as = some (bs', s'')) : m.drive s (a :: as) = some (bs ++ bs', s'') := by
  rw [drive, ha]
  show (m.drive s' as >>= _) = _
  rw [has]
  rfl

theorem drive_append (h : m.drive s as = some (bs, s')) (h' : m.drive s' as' = some (bs', s'')) :
    m.drive s (as ++ as') = some (bs ++ bs', s'') := by
  induction as generalizing s bs with
  | nil =>
    cases h
    exact h'
  | cons a as ih =>
    obtain ⟨⟨cs, t⟩, ha, h⟩ := Option.bind_eq_some_iff.mp h
    obtain ⟨⟨cs', t'⟩, has, h⟩ := Option.bind_eq_some_iff.mp h
    cases h
    rw [List.cons_append, drive_cons ha (ih has), List.append_assoc]

/-- One step that puts nothing out, and then the rest. -/
theorem drive_silent {a : α} (ha : m.step s a = some ([], s'))
    (has : m.drive s' as = some (bs, s'')) : m.drive s (a :: as) = some (bs, s'') :=
  drive_cons ha has

/-- A piece that puts nothing out, and then the rest. -/
theorem drive_append_silent (h : m.drive s as = some ([], s'))
    (h' : m.drive s' as' = some (bs, s'')) : m.drive s (as ++ as') = some (bs, s'') :=
  drive_append h h'

theorem drive_single {a : α} (ha : m.step s a = some (bs, s')) : m.drive s [a] = some (bs, s') := by
  rw [drive_cons ha (show m.drive s' [] = some ([], s') from rfl), List.append_nil]

/-- Pieces each of which leads back to where it began. -/
theorem drive_flatMap {ι : Type} {f : ι → List α} {g : ι → List β} {is : List ι}
    (h : ∀ i ∈ is, m.drive s (f i) = some (g i, s)) :
    m.drive s (is.flatMap f) = some (is.flatMap g, s) := by
  induction is with
  | nil => rfl
  | cons i is ih =>
    rw [List.flatMap_cons, List.flatMap_cons]
    exact drive_append (h i List.mem_cons_self) (ih fun j hj => h j (List.mem_cons_of_mem i hj))

theorem run_of_finish (h : m.drive m.start as = some (bs, s)) (hf : m.finish s = some bs') :
    m.run as = some (bs ++ bs') := by
  unfold run
  rw [h]
  show (m.finish s >>= _) = _
  rw [hf]
  rfl

theorem run_of_drive (h : m.drive m.start as = some (bs, s)) (hf : m.finish s = some []) :
    m.run as = some bs := by
  rw [run_of_finish h hf, List.append_nil]

end Machine

/-! ## Words and marks -/

inductive Token where
  | word (s : String)
  | newline
  | opens
  | closes
  deriving DecidableEq, Repr

/-- Where the reader is: outside of quotes, in the middle of a word or not, between quotes, or in a
comment. -/
inductive Mode where
  | bare (word : Option (List Char))
  | single (word : List Char)
  | double (word : List Char)
  | comment
  deriving DecidableEq, Repr

/-- Characters that make a shell expand, escape or redirect something, or end a command. -/
def isSpecial (c : Char) : Bool :=
  "\\$`*?[]~!;&|<>^\x7b\x7d".toList.contains c

/-- Those that keep their meaning between double quotes. -/
def isActive (c : Char) : Bool :=
  "\\$`".toList.contains c

/-- The word that ends here, if there is one. -/
def ended (word : Option (List Char)) : List Token :=
  word.toList.map fun cs => .word (String.ofList cs)

def Mode.step : Mode → Char → Option (List Token × Mode)
  | .bare word, c =>
    if c = ' ' || c = '\t' then some (ended word, .bare none)
    else if c = '\n' then some (ended word ++ [.newline], .bare none)
    else if c = '(' then some (ended word ++ [.opens], .bare none)
    else if c = ')' then some (ended word ++ [.closes], .bare none)
    else if c = Text.singleQuote then some ([], .single (word.getD []))
    else if c = Text.doubleQuote then some ([], .double (word.getD []))
    else if c = '#' && word.isNone then some ([], .comment)
    else if isSpecial c then none
    else some ([], .bare (some (word.getD [] ++ [c])))
  | .single word, c =>
    if c = Text.singleQuote then some ([], .bare (some word))
    else some ([], .single (word ++ [c]))
  | .double word, c =>
    if c = Text.doubleQuote then some ([], .bare (some word))
    else if isActive c then none
    else some ([], .double (word ++ [c]))
  | .comment, c =>
    if c = '\n' then some ([.newline], .bare none) else some ([], .comment)

/-- Cuts a script into words and marks. Comments are dropped; quotes have to be closed. -/
def tokenizer : Machine Char Token Mode where
  start := .bare none
  step := Mode.step
  finish
    | .bare word => some (ended word)
    | .comment => some []
    | _ => none

/-! ## Commands and groups -/

inductive Item where
  | command (words : List String)
  | group (commands : List (List String))
  deriving DecidableEq, Repr

/-- Where the words stand: outside of groups, in a group after some commands, or on the line on
which a group has ended. -/
inductive Place where
  | outside (words : List String)
  | inside (done : List (List String)) (words : List String)
  | behind
  deriving DecidableEq, Repr

/-- The command that ends here, if there is one. -/
def completed (words : List String) : List (List String) :=
  if words.isEmpty then [] else [words]

def Place.step : Place → Token → Option (List Item × Place)
  | .outside words, .word s => some ([], .outside (words ++ [s]))
  | .outside words, .newline => some ((completed words).map .command, .outside [])
  | .outside [], .opens => some ([], .inside [] [])
  | .inside done words, .word s => some ([], .inside done (words ++ [s]))
  | .inside done words, .newline => some ([], .inside (done ++ completed words) [])
  | .inside done words, .closes => some ([.group (done ++ completed words)], .behind)
  | .behind, .newline => some ([], .outside [])
  | _, _ => none

/-- Puts words together to commands and groups. There are no groups within groups. -/
def grouper : Machine Token Item Place where
  start := .outside []
  step := Place.step
  finish
    | .outside words => some ((completed words).map .command)
    | .inside .. => none
    | .behind => some []

/-! ## Entries -/

/-- Whether a variable can have this name. -/
def isName (s : String) : Bool :=
  match s.toList with
  | [] => false
  | c :: cs => (c.isAlpha || c = '_') && cs.all fun c => c.isAlphanum || c = '_'

/-- The name and the value of an assignment. -/
def assignment? (s : String) : Option (String × String) :=
  let name := s.toList.takeWhile (· ≠ '=')
  match s.toList.drop name.length with
  | _ :: value =>
    if isName (String.ofList name) then some (String.ofList name, String.ofList value) else none
  | [] => none

def export? : List String → Option (String × String)
  | ["export", s] => assignment? s
  | _ => none

/-- The directory that the first command changes to, if it is one for that, and the rest. -/
def directory? : List (List String) → Option String × List (List String)
  | ["cd", directory] :: rest => (some directory, rest)
  | commands => (none, commands)

/-- The last command of a group is run; what comes before it is where and with which variables. -/
def entry? : Item → Option Entry
  | .command words => some ⟨words, [], none⟩
  | .group commands => do
    let command ← commands.getLast?
    let (directory, exports) := directory? commands.dropLast
    let environment ← exports.mapM export?
    return ⟨command, environment, directory⟩

/-- The commands of a script, in order. -/
def read? (script : String) : Option (List Entry) := do
  let tokens ← tokenizer.run script.toList
  let items ← grouper.run tokens
  items.mapM entry?

/-! ## Words are read as what they stand for -/

variable {c : Char} {cs : List Char} {s s' t t' : String}

theorem step_harmless (hc : isHarmless c = true) (front : Option (List Char)) :
    tokenizer.step (.bare front) c = some ([], .bare (some (front.getD [] ++ [c]))) := by
  have hne : ∀ d, isHarmless d = false → c ≠ d := by
    rintro _ hd rfl
    rw [hd] at hc
    cases hc
  have hspecial : isSpecial c = false := by
    have hall : ∀ d ∈ "\\$`*?[]~!;&|<>^\x7b\x7d".toList, isHarmless d = false :=
      List.all_iff_forall_prop.mp (by decide)
    rw [Bool.eq_false_iff]
    exact fun hs => hne c (hall c (List.contains_iff_mem.mp hs)) rfl
  show Mode.step (.bare front) c = _
  simp [Mode.step, hne ' ' rfl, hne '\t' rfl, hne '\n' rfl, hne '(' rfl, hne ')' rfl,
    hne Text.singleQuote rfl, hne Text.doubleQuote rfl, hne '#' rfl, hspecial]

theorem drive_harmless (hcs : ∀ c ∈ cs, isHarmless c = true) (w : List Char) :
    tokenizer.drive (.bare (some w)) cs = some ([], .bare (some (w ++ cs))) := by
  induction cs generalizing w with
  | nil =>
    rw [List.append_nil]
    rfl
  | cons c cs ih =>
    have hrest := ih (fun d hd => hcs d (List.mem_cons_of_mem c hd)) (w ++ [c])
    rw [List.append_assoc] at hrest
    exact Machine.drive_silent (step_harmless (hcs c List.mem_cons_self) (some w)) hrest

/-- A single quote inside single quotes: out of them, between double quotes, and back. -/
theorem drive_quotedQuote (w : List Char) :
    tokenizer.drive (.single w) quotedQuote = some ([], .single (w ++ [Text.singleQuote])) :=
  rfl

theorem drive_quoted (cs w : List Char) :
    tokenizer.drive (.single w) (cs.flatMap quoteChar) = some ([], .single (w ++ cs)) := by
  induction cs generalizing w with
  | nil =>
    rw [List.append_nil]
    rfl
  | cons c cs ih =>
    have hc : tokenizer.drive (.single w) (quoteChar c) = some ([], .single (w ++ [c])) := by
      unfold quoteChar
      split
      case isTrue hq =>
        rw [hq]
        exact drive_quotedQuote w
      case isFalse hq => exact Machine.drive_single (if_neg hq)
    rw [List.flatMap_cons, Machine.drive_append hc (ih _), List.append_assoc]
    rfl

/-- The text is read as this, wherever in a word it stands. -/
def Spells (t s : String) : Prop :=
  ∀ front, tokenizer.drive (.bare front) t.toList =
    some ([], .bare (some (front.getD [] ++ s.toList)))

theorem spells_harmless (hs : s.toList.all isHarmless = true) (hne : s.toList ≠ []) :
    Spells s s := by
  intro front
  rw [List.all_eq_true] at hs
  obtain ⟨c, cs, hcs⟩ := List.exists_cons_of_ne_nil hne
  rw [hcs] at hs ⊢
  have hrest := drive_harmless (fun d hd => hs d (List.mem_cons_of_mem c hd)) (front.getD [] ++ [c])
  rw [List.append_assoc] at hrest
  exact Machine.drive_silent (step_harmless (hs c List.mem_cons_self) front) hrest

theorem spells_quoted (s : String) :
    Spells (String.ofList (Text.singleQuote :: s.toList.flatMap quoteChar ++ [Text.singleQuote]))
      s := by
  intro front
  have hopen : tokenizer.step (.bare front) Text.singleQuote = some ([], .single (front.getD [])) :=
    rfl
  have hclose : tokenizer.drive (.single (front.getD [] ++ s.toList)) [Text.singleQuote] =
      some ([], .bare (some (front.getD [] ++ s.toList))) := rfl
  rw [String.toList_ofList, List.cons_append]
  exact Machine.drive_silent hopen (Machine.drive_append (drive_quoted _ _) hclose)

/-- **A written word is read as the word.** -/
theorem spells_word (s : String) : Spells (word s) s := by
  unfold word
  dsimp only
  split
  case isTrue h =>
    simp only [Bool.and_eq_true, Bool.not_eq_true', List.isEmpty_eq_false_iff] at h
    exact spells_harmless h.2 h.1
  case isFalse => exact spells_quoted s

theorem forall₂_spells (ws : List String) : List.Forall₂ Spells (ws.map word) ws := by
  rw [List.forall₂_map_left_iff, List.forall₂_same]
  exact fun s _ => spells_word s

theorem Spells.append (h : Spells t s) (h' : Spells t' s') : Spells (t ++ t') (s ++ s') := by
  intro front
  have hback := h' (some (front.getD [] ++ s.toList))
  rw [Option.getD_some, List.append_assoc] at hback
  rw [String.toList_append, String.toList_append]
  exact Machine.drive_append (h front) hback

/-! ## Lines -/

theorem ended_toList (s : String) : ended (some s.toList) = [.word s] := by
  unfold ended
  rw [Option.toList_some, List.map_singleton, String.ofList_toList]

/-- Written words with blanks between them are read as these words. The last of them has not ended
yet. -/
theorem drive_joined {ts ss : List String} (h : List.Forall₂ Spells ts ss) (hne : ts ≠ []) :
    ∃ front last, ss = front ++ [last] ∧
      tokenizer.drive (.bare none) (Text.joinWith " " ts).toList =
        some (front.map .word, .bare (some last.toList)) := by
  have hword : ∀ {t s}, Spells t s →
      tokenizer.drive (.bare none) t.toList = some ([], .bare (some s.toList)) := fun h => h none
  have hblank : ∀ s : String, tokenizer.step (.bare (some s.toList)) ' ' =
      some ([.word s], .bare none) := fun s => by
    rw [← ended_toList]
    rfl
  rw [Text.toList_joinWith, show " ".toList = [' '] from rfl]
  induction h with
  | nil => exact absurd rfl hne
  | @cons t s ts ss hts hrest ih =>
    cases hrest with
    | nil =>
      rw [List.map_singleton, List.intercalate_singleton]
      exact ⟨[], s, rfl, hword hts⟩
    | @cons t' s' ts' ss' =>
      obtain ⟨front, last, hss, hdrive⟩ := ih (List.cons_ne_nil t' ts')
      refine ⟨s :: front, last, congrArg (s :: ·) hss, ?_⟩
      rw [List.map_cons, List.map_cons, List.intercalate_cons_cons, List.append_assoc]
      exact Machine.drive_append_silent (hword hts) (Machine.drive_cons (hblank s) hdrive)

/-- **A line of written words is read as these words**, and the line ends. -/
theorem drive_line {ts ss : List String} (h : List.Forall₂ Spells ts ss) (hne : ts ≠ []) :
    tokenizer.drive (.bare none) ((Text.joinWith " " ts).toList ++ ['\n']) =
      some (ss.map .word ++ [.newline], .bare none) := by
  obtain ⟨front, last, rfl, hdrive⟩ := drive_joined h hne
  have hend : tokenizer.drive (.bare (some last.toList)) ['\n'] =
      some ([.word last, .newline], .bare none) := by
    refine Machine.drive_single ?_
    show some (ended (some last.toList) ++ [.newline], Mode.bare none) = _
    rw [ended_toList]
    rfl
  rw [Machine.drive_append hdrive hend, List.map_append, List.append_assoc]
  rfl

/-- A comment is dropped up to the end of its line. -/
theorem drive_comment (hn : '\n' ∉ cs) :
    tokenizer.drive (.bare none) ('#' :: cs ++ ['\n']) = some ([.newline], .bare none) := by
  have hcs : tokenizer.drive .comment cs = some ([], .comment) := by
    induction cs with
    | nil => rfl
    | cons c cs ih =>
      rw [List.mem_cons, not_or] at hn
      exact Machine.drive_silent (if_neg (Ne.symm hn.1)) (ih hn.2)
  have hopen : tokenizer.step (.bare none) '#' = some ([], .comment) := rfl
  exact Machine.drive_silent hopen (Machine.drive_append_silent hcs rfl)

end Assay.Shell
