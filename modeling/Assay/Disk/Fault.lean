import Assay.Text.Quoted

/-!
# Operating system faults

What the operating system answers when it refuses an operation: a number, a text and, where one is
involved, the path as it was given.
-/

namespace Assay

/-- The causes that operations on the disk can name. -/
inductive Errno where
  | noEntry
  | entryExists
  | notDirectory
  | isDirectory
  | nameTooLong
  | linkLoop
  | notPermitted
  deriving DecidableEq, Repr

def Errno.code : Errno → Int
  | .noEntry => 2
  | .entryExists => 17
  | .notDirectory => 20
  | .isDirectory => 21
  | .nameTooLong => 36
  | .linkLoop => 40
  | .notPermitted => 1

def Errno.text : Errno → String
  | .noEntry => "No such file or directory"
  | .entryExists => "File exists"
  | .notDirectory => "Not a directory"
  | .isDirectory => "Is a directory"
  | .nameTooLong => "File name too long"
  | .linkLoop => "Too many levels of symbolic links"
  | .notPermitted => "Operation not permitted"

structure OsFault where
  code : Int
  text : String
  path : Option String
  deriving DecidableEq, Repr

namespace OsFault

def ofErrno (e : Errno) (path : String) : OsFault :=
  ⟨e.code, e.text, some path⟩

def message (f : OsFault) : String :=
  let body := "[Errno " ++ toString f.code ++ "] " ++ f.text
  match f.path with
  | none => body
  | some path => body ++ ": " ++ Text.quoted path

/-- The name of the class of faults with this number. -/
def kindName (f : OsFault) : String :=
  if f.code = 1 || f.code = 13 then "PermissionError"
  else if f.code = 2 then "FileNotFoundError"
  else if f.code = 17 then "FileExistsError"
  else if f.code = 20 then "NotADirectoryError"
  else if f.code = 21 then "IsADirectoryError"
  else "OSError"

end OsFault

end Assay
