import Assay.Fault

/-!
# Flag templates

Flags that a user passes to a backend may hold placeholders between braces. Doubled braces stand
for single ones, a brace that belongs to no pair and no placeholder stands for itself, and values
are inserted as they are.
-/

namespace Assay.Flag

def openBrace : Char := '\x7b'

def closeBrace : Char := '\x7d'

def isBrace (c : Char) : Bool :=
  c = openBrace || c = closeBrace

/-- A piece of a template, read from left to right. -/
inductive Piece where
  | plain (c : Char)
  | placeholder (key : List Char)
  deriving DecidableEq, Repr

/-- The key of a placeholder whose opening brace has been read, and what follows it. -/
def key? (cs : List Char) : Option (List Char × List Char) :=
  match cs.dropWhile fun c => !isBrace c with
  | c :: rest => if c = closeBrace then some (cs.takeWhile fun c => !isBrace c, rest) else none
  | [] => none

theorem length_lt_of_key? {cs key rest : List Char} (h : key? cs = some (key, rest)) :
    rest.length < cs.length := by
  unfold key? at h
  have hle := (cs.dropWhile_sublist fun c => !isBrace c).length_le
  split at h
  · rename_i c more heq
    rw [heq] at hle
    split at h
    · simp only [Option.some.injEq, Prod.mk.injEq] at h
      rw [← h.2]
      exact hle
    · simp at h
  · simp at h

/-- The pieces of a template. -/
def pieces (cs : List Char) : List Piece :=
  match cs with
  | [] => []
  | c :: rest =>
    if isBrace c && rest.head? = some c then .plain c :: pieces (rest.drop 1)
    else if c = openBrace then
      match h : key? rest with
      | some (key, after) =>
        have := length_lt_of_key? h
        .placeholder key :: pieces after
      | none => .plain c :: pieces rest
    else .plain c :: pieces rest
termination_by cs.length

/-- The values that a flag may ask for. -/
structure Values where
  entry : String
  file : String
  outputDir : String
  deriving DecidableEq, Repr

def Values.get? (v : Values) (key : String) : Option String :=
  if key = "entry" then some v.entry
  else if key = "file" then some v.file
  else if key = "output_dir" then some v.outputDir
  else none

/-- The text of one piece, or its key if no value has this key. -/
def pieceText (v : Values) : Piece → Except String (List Char)
  | .plain c => .ok [c]
  | .placeholder key =>
    match v.get? (String.ofList key) with
    | some value => .ok value.toList
    | none => .error (String.ofList key)

/-- The pieces put together; the first unknown key is the fault. -/
def assemble (v : Values) : List Piece → Except String (List Char)
  | [] => .ok []
  | p :: rest =>
    match pieceText v p with
    | .error key => .error key
    | .ok text => (assemble v rest).map (text ++ ·)

/-- A flag with its placeholders replaced. -/
def format (v : Values) (flag : String) : Except JobFault String :=
  match assemble v (pieces flag.toList) with
  | .ok text => .ok (String.ofList text)
  | .error key => .error (.unknownPlaceholder key flag)

end Assay.Flag
