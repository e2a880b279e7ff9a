import Assay.Call
import Assay.Json.Reader

/-!
# The host

What a run finds around it and cannot change: environment variables, installed programs, entries
that cannot be removed, how processes behave, and how deep a recursion may go. A process sees the
calls before its own and the disk, changes the disk, and ends; nothing else is assumed about it. A
host that is particular about calls, as operating systems are, `Heeds` what is wrong with them.
-/

namespace Assay

structure Host where
  environment : List (String × String)
  installed : String → Bool
  processors : Int
  /-- Whether removing the entry at a path fails. It fails as a whole: of a directory nothing is
  removed, or everything. -/
  pinned : Path → Bool
  /-- What a process does, given the calls before it. -/
  behave : List Call → Call → Disk → Disk × Ending
  /-- The deepest nesting of values that can be read: what is left of the stack decides it. -/
  maxDepth : Nat := Json.usualDepth
  /-- The most missing ancestors of a directory that can be made at once, for the same reason. -/
  maxMissing : Nat := 985

namespace Host

def value? (h : Host) (name : String) : Option String :=
  h.environment.lookup name

/-- The value of a variable, where an empty value counts as none. -/
def setting? (h : Host) (name : String) : Option String :=
  (h.value? name).filter fun s => !s.isEmpty

/-- The host carries out no call that cannot be carried out, and gives up no other: a text that no
system takes is noticed first, and a limit when the process is waited for. -/
structure Heeds (h : Host) : Prop where
  refused : ∀ before c d f, (h.behave before c d).2 = .refused f → c.hasNull = false
  abandoned : ∀ before c d f, (h.behave before c d).2 = .abandoned f → c.fault? = some f
  ended : ∀ before c d code out err overruns,
    (h.behave before c d).2 = .ended code out err overruns → c.fault? = none

end Host

end Assay
