import Assay.Proofs.Reader

/-!
# Commands are split back into their words

`split?` reads a text as a shell does that has nothing to do but to split it. Blanks and line ends
separate words, quotes are taken off, and whatever is more than words is refused: an expansion, an
operator, a comment. It is the reader of scripts with fewer answers (`splitter_drive`), so what is
known of written words holds of it, and a command as it is logged is split into exactly the words
of the command, `command_splits`.
-/

namespace Assay.Shell

/-! ## A splitter -/

/-- The words in what is read. A line end separates words as a blank does; a parenthesis is an
operator. -/
def wordsOf? : List Token → Option (List String)
  | [] => some []
  | .word s :: rest => (wordsOf? rest).map (s :: ·)
  | .newline :: rest => wordsOf? rest
  | .opens :: _ => none
  | .closes :: _ => none

/-- Cuts a text into words and refuses everything else. -/
def splitter : Machine Char String Mode where
  start := tokenizer.start
  step mode c := do
    let (tokens, mode) ← tokenizer.step mode c
    let words ← wordsOf? tokens
    if mode = .comment then none else return (words, mode)
  finish mode := do
    let tokens ← tokenizer.finish mode
    wordsOf? tokens

/-- The words of a text, if a shell would do no more than to split it. -/
def split? (text : String) : Option (List String) :=
  splitter.run text.toList

/-! ## What is read as words is split into them -/

variable {c : Char} {cs : List Char} {mode mode' : Mode} {tokens : List Token} {ws : List String}

theorem wordsOf?_map_word (ws : List String) : wordsOf? (ws.map .word) = some ws := by
  induction ws with
  | nil => rfl
  | cons s ws ih =>
    show (wordsOf? (ws.map .word)).map (s :: ·) = _
    rw [ih]
    rfl

/-- A comment ends only where its line does. -/
theorem comment_of_drive (h : tokenizer.drive .comment cs = some (tokens, mode))
    (hn : .newline ∉ tokens) : mode = .comment := by
  induction cs generalizing tokens with
  | nil =>
    cases h
    rfl
  | cons c cs ih =>
    obtain ⟨⟨first, mode₁⟩, hstep, h⟩ := Option.bind_eq_some_iff.mp h
    obtain ⟨⟨rest, mode₂⟩, hrest, h⟩ := Option.bind_eq_some_iff.mp h
    cases h
    rw [List.mem_append, not_or] at hn
    change (if c = '\n' then some ([Token.newline], Mode.bare none) else some ([], .comment)) =
      some (first, mode₁) at hstep
    split at hstep
    case isTrue =>
      cases hstep
      exact absurd List.mem_cons_self hn.1
    case isFalse =>
      cases hstep
      exact ih hrest hn.2

/-- **What is read as words is split into these words**, unless the text ends in a comment. -/
theorem splitter_drive (h : tokenizer.drive mode cs = some (ws.map .word, mode'))
    (hmode : mode' ≠ .comment) : splitter.drive mode cs = some (ws, mode') := by
  induction cs generalizing mode ws with
  | nil =>
    obtain ⟨hws, rfl⟩ := Prod.mk.inj (Option.some.inj h)
    rw [List.map_eq_nil_iff.mp hws.symm]
    rfl
  | cons c cs ih =>
    obtain ⟨⟨first, mode₁⟩, hstep, h⟩ := Option.bind_eq_some_iff.mp h
    obtain ⟨⟨rest, mode₂⟩, hrest, h⟩ := Option.bind_eq_some_iff.mp h
    obtain ⟨hws, rfl⟩ := Prod.mk.inj (Option.some.inj h)
    obtain ⟨ws₁, ws₂, rfl, rfl, rfl⟩ := List.map_eq_append_iff.mp hws.symm
    -- a comment that begins here would last to the end
    have hcomment : mode₁ ≠ .comment := by
      rintro rfl
      refine hmode (comment_of_drive hrest ?_)
      simp
    have hfirst : splitter.step mode c = some (ws₁, mode₁) := by
      show (tokenizer.step mode c >>= _) = _
      rw [hstep]
      show (wordsOf? (ws₁.map .word) >>= _) = _
      rw [wordsOf?_map_word]
      exact if_neg hcomment
    exact Machine.drive_cons hfirst (ih hrest)

theorem split?_command (ws : List String) : split? (command ws) = some ws := by
  cases ws with
  | nil => rfl
  | cons s ws =>
    obtain ⟨front, last, hws, hdrive⟩ :=
      drive_joined (forall₂_spells (s :: ws)) (List.cons_ne_nil _ _)
    have hfinish : splitter.finish (.bare (some last.toList)) = some [last] := by
      show wordsOf? (ended (some last.toList)) = _
      rw [ended_toList]
      rfl
    have hrun : splitter.run (command (s :: ws)).toList = some (front ++ [last]) :=
      Machine.run_of_finish (splitter_drive hdrive Mode.noConfusion) hfinish
    exact hrun.trans (congrArg some hws.symm)

/-- **A logged command is split into its words.** Whatever is in the words, a shell that reads the
command expands nothing, meets no operator and no comment, and finds the same words in the same
order. So two commands that are logged alike are one command. -/
theorem command_splits (ws : List String) :
    split? (command ws) = some ws ∧ Function.Injective command := by
  refine ⟨split?_command ws, fun front back h => ?_⟩
  have hfront := split?_command front
  rw [h, split?_command back] at hfront
  exact (Option.some.inj hfront).symm

/-- Quotes are taken off wherever they stand in a word, and a sharp sign within a word is one. -/
example : split? "ls 'a b'\"c\" d#e ''" = some ["ls", "a bc", "d#e", ""] := by
  decide +kernel

/-- A command with a comment behind it is refused, and so is one that expands a variable. -/
example : split? "ls #d" = none ∧ split? "ls $HOME" = none := by
  decide +kernel

end Assay.Shell
