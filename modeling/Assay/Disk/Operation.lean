import Assay.Disk.Walk
import Assay.Path

/-!
# Operations on the disk

Making directories, reading and writing files, and removing entries, each with the fault that the
operating system would answer. A faulty operation leaves the disk as it was, but for
`makeDirectories`, which may have made ancestors before it failed.
-/

namespace Assay.Disk

/-- Faults that mean "there is nothing of that kind" to a question about a path. -/
def isAbsence : Errno → Bool
  | .noEntry | .notDirectory | .linkLoop => true
  | _ => false

/-- No path of the operating system holds a null character. -/
def hasNull (s : String) : Bool :=
  s.toList.contains (Char.ofNat 0)

/-- What a path leads to, if anything; only a path that is too long is a fault. -/
def look (d : Disk) (aim : Aim) (path : String) : Except OsFault (Option Entry) :=
  if hasNull path then .ok none
  else
  match d.find aim path with
  | .ok (.entry _ e) => .ok (some e)
  | .ok (.vacant ..) => .ok none
  | .error e => if isAbsence e then .ok none else .error (.ofErrno e path)

def exists? (d : Disk) (path : String) : Except OsFault Bool :=
  (d.look .target path).map Option.isSome

def isDirectory? (d : Disk) (path : String) : Except OsFault Bool :=
  (d.look .target path).map fun e =>
    match e with
    | some .directory => true
    | _ => false

def isFile? (d : Disk) (path : String) : Except OsFault Bool :=
  (d.look .target path).map fun e =>
    match e with
    | some (.file _) => true
    | _ => false

def isLink? (d : Disk) (path : String) : Except OsFault Bool :=
  (d.look .itself path).map fun e =>
    match e with
    | some (.link _) => true
    | _ => false

/-! ## Making -/

def makeDirectory (d : Disk) (path : String) : Except OsFault Disk :=
  match d.find .itself path with
  | .ok (.vacant parent name) => .ok (d.insert (parent ++ [name]) .directory)
  | .ok (.entry ..) => .error (.ofErrno .entryExists path)
  | .error e => .error (.ofErrno e path)

/-- Makes one directory, where an existing directory is as good as a new one. -/
def ensureDirectory (d : Disk) (path : String) : Except OsFault Disk :=
  match d.makeDirectory path with
  | .ok d => .ok d
  | .error f =>
    if f.code = Errno.noEntry.code then .error f
    else
      match d.isDirectory? path with
      | .ok true => .ok d
      | .ok false => .error f
      | .error g => .error g

/-- The directory that a path leads to. -/
def directoryAt? (d : Disk) (path : Path) : Option Location :=
  match d.find .target path.text with
  | .ok (.entry loc .directory) => some loc
  | _ => none

/-- Whether an entry of this name can be made in a directory, since there is none. -/
def isFree (d : Disk) (parent : Location) (name : String) : Bool :=
  name ≠ ".." && name.utf8ByteSize ≤ maxName && (d.get? (parent ++ [name])).isNone

/-- Makes one directory like `ensureDirectory`, and hands over its location. If the directory that
is to hold it is known and has room for the name, the path need not be followed again. -/
def ensureInside (d : Disk) (parent : Option Location) (path : Path) :
    Except OsFault (Disk × Option Location) :=
  match parent.filter fun loc => d.isFree loc path.name with
  | some loc =>
    let loc := loc ++ [path.name]
    .ok (d.insert loc .directory, some loc)
  | none => (d.ensureDirectory path.text).map fun d => (d, d.directoryAt? path)

/-- Makes a directory and the ancestors it lacks, and says where it is. -/
def makeLocated (d : Disk) (path : Path) : Disk × Except OsFault (Option Location) :=
  match d.ensureDirectory path.text with
  | .ok d => (d, .ok (d.directoryAt? path))
  | .error f =>
    if h : path.parent = path then (d, .error f)
    else if f.code = Errno.noEntry.code then
      have := Path.length_parent_lt h
      match d.makeLocated path.parent with
      | (d, .error f) => (d, .error f)
      | (d, .ok parent) =>
        match d.ensureInside parent path with
        | .ok (d, loc) => (d, .ok loc)
        | .error f => (d, .error f)
    else (d, .error f)
termination_by path.parts.length

/-- Makes a directory and the ancestors it lacks. The second component says what came of it. -/
def makeDirectories (d : Disk) (path : Path) : Disk × Except OsFault Unit :=
  let (d, result) := d.makeLocated path
  (d, result.map fun _ => ())

/-- How many directories are missing between a path and the nearest ancestor that can be made or is
there. -/
def missingAncestors (d : Disk) (path : Path) : Nat :=
  match d.ensureDirectory path.text with
  | .ok _ => 0
  | .error f =>
    if h : path.parent = path then 0
    else if f.code = Errno.noEntry.code then
      have := Path.length_parent_lt h
      d.missingAncestors path.parent + 1
    else 0
termination_by path.parts.length

/-! ## Files -/

def read (d : Disk) (path : String) : Except OsFault Text.Bytes :=
  match d.find .target path with
  | .ok (.entry _ (.file content)) => .ok content
  | .ok (.entry ..) => .error (.ofErrno .isDirectory path)
  | .ok (.vacant ..) => .error (.ofErrno .noEntry path)
  | .error e => .error (.ofErrno e path)

/-- Changes the content of a file, or makes the file; `change` gets the old content. -/
def alter (d : Disk) (path : String) (change : Text.Bytes → Text.Bytes) :
    Except OsFault Disk :=
  match d.find .content path with
  | .ok (.entry loc (.file content)) => .ok (d.insert loc (.file (change content)))
  | .ok (.entry ..) => .error (.ofErrno .isDirectory path)
  | .ok (.vacant parent name) => .ok (d.insert (parent ++ [name]) (.file (change [])))
  | .error e => .error (.ofErrno e path)

def write (d : Disk) (path : String) (content : Text.Bytes) : Except OsFault Disk :=
  d.alter path fun _ => content

def extend (d : Disk) (path : String) (content : Text.Bytes) : Except OsFault Disk :=
  d.alter path (· ++ content)

def makeLink (d : Disk) (path target : String) : Except OsFault Disk :=
  match d.find .itself path with
  | .ok (.vacant parent name) => .ok (d.insert (parent ++ [name]) (.link target))
  | .ok (.entry ..) => .error (.ofErrno .entryExists path)
  | .error e => .error (.ofErrno e path)

/-! ## Removing -/

/-- Removes a file or a link, not what the link leads to. -/
def remove (d : Disk) (path : String) : Except OsFault Disk :=
  match d.find .itself path with
  | .ok (.entry _ .directory) => .error (.ofErrno .isDirectory path)
  | .ok (.entry loc _) => .ok (d.erase loc)
  | .ok (.vacant ..) => .error (.ofErrno .noEntry path)
  | .error e => .error (.ofErrno e path)

/-- Removes all that is below a directory, and then the directory if the path still leads to it by
its own name. -/
def removeTree (d : Disk) (path : Path) : Disk :=
  match d.find .itself path.text with
  | .ok (.entry loc .directory) =>
    let emptied := d.prune loc
    match emptied.find .itself path.text with
    | .ok (.entry loc .directory) => if path.name = ".." then emptied else emptied.erase loc
    | _ => emptied
  | _ => d

/-- The names in a directory; nothing if there is no such directory. -/
def list (d : Disk) (path : String) : List String :=
  match d.find .target path with
  | .ok (.entry loc .directory) => d.childNames loc
  | _ => []

end Assay.Disk
