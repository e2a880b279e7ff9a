import Assay.Disk.Basic
import Assay.Disk.Fault

/-!
# Following a path

A path is followed one component at a time. A link on the way is replaced by its target; what
happens to a link at the end depends on the aim of the operation. The number of links that may be
followed bounds the walk, so that links in a circle are an error and not an endless search.

The target of a link may end with a slash, which asks for a directory. A file cannot be made under
such a name, whatever is there.
-/

namespace Assay.Disk

/-- Where a path leads. -/
inductive Found where
  | entry (loc : Location) (e : Entry)
  /-- Nothing is there, but the directory that would hold it exists. -/
  | vacant (parent : Location) (name : String)
  deriving DecidableEq, Repr

/-- What an operation wants at the end of a path: the entry itself, what a link there leads to, or
what it leads to so as to make a file if there is none. -/
inductive Aim where
  | itself
  | target
  | content
  deriving DecidableEq, Repr

/-- The most links that are followed on one path. -/
def maxLinks : Nat := 40

/-- The longest name of an entry and the longest path, in bytes. -/
def maxName : Nat := 255

def maxPath : Nat := 4095

/-- The component that stands for a slash at the end. -/
def finalSlash : String := ""

/-- The components of a path or of a link's target. -/
def componentsOf (cs : List Char) : List String :=
  let names := ((Text.splitBy (· == '/') cs).filter fun c => !c.isEmpty).map String.ofList
  if cs.getLast? = some '/' then names ++ [finalSlash] else names

def isRooted (cs : List Char) : Bool :=
  cs.head? = some '/'

/-- Follows components from the directory `loc`. -/
def walk (d : Disk) (aim : Aim) (links : Nat) (loc : Location) (names : List String) :
    Except Errno Found :=
  match names with
  | [] => .ok (.entry loc .directory)
  | name :: rest =>
    if name = finalSlash || name = "." then walk d aim links loc rest
    else if name = ".." then walk d aim links loc.dropLast rest
    else if aim = .content && rest = [finalSlash] then .error .isDirectory
    else if maxName < name.utf8ByteSize then .error .nameTooLong
    else
      match d.get? (loc ++ [name]) with
      | none => if rest.isEmpty then .ok (.vacant loc name) else .error .noEntry
      | some .directory => walk d aim links (loc ++ [name]) rest
      | some (.file content) =>
        if rest.isEmpty then .ok (.entry (loc ++ [name]) (.file content)) else .error .notDirectory
      | some (.link target) =>
        if rest.isEmpty && aim = .itself then .ok (.entry (loc ++ [name]) (.link target))
        else
          match links with
          | 0 => .error .linkLoop
          | links + 1 =>
            let start := if isRooted target.toList then [] else loc
            walk d aim links start (componentsOf target.toList ++ rest)
termination_by (links, names.length)

/-- Follows a path from the working directory. -/
def find (d : Disk) (aim : Aim) (path : String) : Except Errno Found :=
  let cs := path.toList
  if cs.isEmpty then .error .noEntry
  else if maxPath < path.utf8ByteSize then .error .nameTooLong
  else walk d aim maxLinks (if isRooted cs then [] else d.here) (componentsOf cs)

end Assay.Disk
