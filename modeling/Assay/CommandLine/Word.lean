import Assay.CommandLine.Switch
import Assay.Text.Digit

/-!
# Words of the command line

Every word is an argument, a switch, an unknown switch, or the separator after which all words are
arguments. A long switch may be shortened as long as it stays unambiguous; an exact spelling always
wins. The value of a switch may be attached to it, behind a sign of equality or, for short switches,
directly. Negative numbers and words with a blank in them are arguments unless they begin like a
switch.
-/

namespace Assay.CommandLine

inductive Kind where
  | argument
  | separator
  /-- A switch as it was spelled, with the value attached to it. -/
  | switch (s : Switch) (spelling : String) (value : Option String)
  | unknown
  deriving DecidableEq, Repr

structure Word where
  text : String
  kind : Kind
  deriving DecidableEq, Repr

def separator : String := "--"

/-- A word cut at its first sign of equality. -/
def splitValue (word : String) : String × Option String :=
  let cs := word.toList
  let before := cs.takeWhile (· != '=')
  match cs.dropWhile (· != '=') with
  | [] => (word, none)
  | _ :: value => (String.ofList before, some (String.ofList value))

/-- Digits, or digits with a point before the last of them, behind a minus; a line feed may
follow. -/
def isNegativeNumber (word : String) : Bool :=
  match word.toList with
  | '-' :: rest =>
    let body := if rest.getLast? = some '\n' then rest.dropLast else rest
    let whole := body.takeWhile Text.isDecimalDigit
    match body.dropWhile Text.isDecimalDigit with
    | [] => !whole.isEmpty
    | '.' :: fraction => !fraction.isEmpty && fraction.all Text.isDecimalDigit
    | _ => false
  | _ => false

/-- The switches that a word which is no exact spelling may stand for. -/
def candidates (word : String) : List (String × Switch × Option String) :=
  if Text.startsWith "--" word then
    let (stem, value) := splitValue word
    (Switch.table.filter fun e => Text.startsWith stem e.1).map fun (spelling, s) =>
      (spelling, s, value)
  else
    let short := String.ofList (word.toList.take 2)
    let attached := String.ofList (word.toList.drop 2)
    Switch.table.filterMap fun (spelling, s) =>
      if spelling = short then some (spelling, s, some attached)
      else if Text.startsWith word spelling then some (spelling, s, none)
      else none

/-- What a word before the separator is. -/
def kindOf (word : String) : Except Complaint Kind :=
  let cs := word.toList
  if cs.head? ≠ some '-' then .ok .argument
  else
    match Switch.ofSpelling? word with
    | some s => .ok (.switch s word none)
    | none =>
      if cs.length = 1 then .ok .argument
      else
        let (stem, value) := splitValue word
        match Switch.ofSpelling? stem, value with
        | some s, some value => .ok (.switch s stem (some value))
        | _, _ =>
          match candidates word with
          | [(spelling, s, value)] => .ok (.switch s spelling value)
          | [] =>
            if isNegativeNumber word || cs.contains ' ' then .ok .argument else .ok .unknown
          | several => .error (.ambiguous word (several.map fun c => c.1))

/-- The words of a command line. -/
def words : List String → Except Complaint (List Word)
  | [] => .ok []
  | text :: rest =>
    if text = separator then .ok (⟨text, .separator⟩ :: rest.map fun t => ⟨t, .argument⟩)
    else do
      let kind ← kindOf text
      let rest ← words rest
      return ⟨text, kind⟩ :: rest

end Assay.CommandLine
