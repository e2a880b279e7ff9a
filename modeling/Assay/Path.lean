import Assay.Text.Search

/-!
# Paths

A path is an anchor and its components. Reading a path drops empty components and components that
are a single dot, keeps `..`, and keeps exactly two leading slashes apart from one and from three or
more. Joining, taking the parent and replacing a suffix work on the components and never look at the
disk, so `..` is a component like any other. Components are Unicode texts; file names of other bytes
do not occur.
-/

namespace Assay

/-- What a path starts from. -/
inductive Anchor where
  | relative
  | root
  | doubleRoot
  deriving DecidableEq, Repr

def Anchor.text : Anchor → String
  | .relative => ""
  | .root => "/"
  | .doubleRoot => "//"

structure Path where
  anchor : Anchor
  parts : List String
  deriving DecidableEq, Repr

namespace Path

/-- A component that reading keeps. -/
def isProper (part : List Char) : Bool :=
  !part.isEmpty && part != ['.']

def anchorOf (cs : List Char) : Anchor :=
  match (cs.takeWhile (· == '/')).length with
  | 0 => .relative
  | 2 => .doubleRoot
  | _ => .root

def components (cs : List Char) : List String :=
  ((Text.splitBy (· == '/') cs).filter isProper).map String.ofList

def parse (s : String) : Path :=
  ⟨anchorOf s.toList, components s.toList⟩

/-- The text of a path; the empty relative path is a dot. -/
def text (p : Path) : String :=
  match p.anchor, p.parts with
  | .relative, [] => "."
  | anchor, parts => anchor.text ++ Text.joinWith "/" parts

instance : ToString Path := ⟨text⟩

/-- `q` seen from `p`: an anchored path stands for itself. -/
def append (p q : Path) : Path :=
  match q.anchor with
  | .relative => ⟨p.anchor, p.parts ++ q.parts⟩
  | _ => q

instance : Append Path := ⟨append⟩

/-- The path without its last component. -/
def parent (p : Path) : Path :=
  ⟨p.anchor, p.parts.dropLast⟩

/-- The last component, or nothing. -/
def name (p : Path) : String :=
  p.parts.getLast?.getD ""

/-- The name cut before its suffix. A suffix begins with the last dot, which is neither the first
nor the last character. -/
def stemOf (name : List Char) : List Char :=
  let tail := (name.reverse.takeWhile (· != '.')).length
  let stem := name.take (name.length - tail - 1)
  if tail = 0 || tail = name.length || stem.isEmpty then name else stem

/-- The path with the suffix of its name replaced. -/
def withSuffix (p : Path) (suffix : String) : Path :=
  let name := String.ofList (stemOf p.name.toList) ++ suffix
  ⟨p.anchor, p.parts.dropLast ++ [name]⟩

/-- Paths are ordered by their components, the anchor counting as the first. -/
def sortKey (p : Path) : List String :=
  match p.anchor with
  | .relative => p.parts
  | anchor => anchor.text :: p.parts

/-- The second path is not before the first, part by part. -/
def le (p q : Path) : Bool :=
  !(q.sortKey.lex p.sortKey fun a b => decide (a < b))

/-- In increasing order; equal paths keep their number. -/
def sort (ps : List Path) : List Path :=
  ps.mergeSort le

theorem parent_ne {p : Path} (h : p.parent ≠ p) : p.parts ≠ [] := by
  intro hp
  apply h
  cases p
  simp_all [parent]

theorem length_parent_lt {p : Path} (h : p.parent ≠ p) :
    p.parent.parts.length < p.parts.length := by
  have := List.length_pos_iff.mpr (parent_ne h)
  simp [parent]
  omega

end Path

end Assay
