import Assay.Disk.Operation
import Assay.Number.Binary64

/-!
# Calls

A call asks the host for a process. The host can refuse it, as the operating system does with a
program that is not there. It can also fail to carry the call out: a text of the call may be one
that no system takes, or the process is started and cannot be waited for, since its limit is no span
of time. Otherwise the process ends.

`Call.fault?` tells of a call whether it can be carried out. Texts are Unicode texts, all of which
have bytes in the usual encoding; a host with another encoding answers for itself.
-/

namespace Assay

/-- A process that is to be started: the program with its arguments, the directory and the variables
it gets besides the inherited ones, and the time it may take. -/
structure Call where
  command : List String
  directory : Option String
  environment : List (String × String)
  limit : Option Number.Binary64
  deriving DecidableEq, Repr

/-- Why a call is not carried out although the system has not refused it. -/
inductive CallFault where
  /-- A text of the call holds a null character. -/
  | nullByte
  /-- A text of the call has no bytes in the host's encoding. The host says what is wrong. -/
  | unencodable (message : String)
  | infiniteLimit
  | undefinedLimit
  /-- The limit is more than the system waits at once. -/
  | longLimit
  /-- The limit is more than the clock can count. -/
  | endlessLimit
  deriving DecidableEq, Repr

namespace CallFault

def message : CallFault → String
  | .nullByte => "embedded null byte"
  | .unencodable message => message
  | .infiniteLimit => "cannot convert float infinity to integer"
  | .undefinedLimit => "cannot convert float NaN to integer"
  | .longLimit => "timeout is too large"
  | .endlessLimit => "timestamp too large to convert to C _PyTime_t"

def kindName : CallFault → String
  | .nullByte => "ValueError"
  | .unencodable _ => "UnicodeEncodeError"
  | .undefinedLimit => "ValueError"
  | .infiniteLimit | .longLimit | .endlessLimit => "OverflowError"

/-- Whether the process has been started when the fault shows; then it is killed. -/
def isLate : CallFault → Bool
  | .nullByte | .unencodable _ => false
  | _ => true

end CallFault

/-- What comes of a call. `overruns` says that the process takes longer than any limit; without a
limit it ends as the other fields say all the same. -/
inductive Ending where
  | refused (f : OsFault)
  | abandoned (f : CallFault)
  | ended (code : Int) (stdout stderr : Text.Bytes) (overruns : Bool)
  deriving DecidableEq, Repr

/-- Whether a process has been started. -/
def Ending.isStarted : Ending → Bool
  | .refused _ => false
  | .abandoned f => f.isLate
  | .ended .. => true

namespace Call

/-- The most milliseconds that are waited for. -/
def maxWait : Nat := 2147483647

/-- The most nanoseconds that are counted. -/
def maxClock : Nat := 9223372036854775807

/-- What keeps a process with this limit from being waited for. A limit below zero is over before it
is waited for, even if there is no end to it. The moment between the start of a process and the wait
is not counted, so the bounds are told to the millisecond, as if there were none. -/
def limitFault? : Number.Binary64 → Option CallFault
  | .nan => some .undefinedLimit
  | .infinite negative => if negative then none else some .infiniteLimit
  | .finite negative m e =>
    let (num, den) := Number.Binary64.fraction m e
    let milliseconds := (1000 * num + den - 1) / den
    if negative then none
    else if maxClock < 1000000 * milliseconds then some .endlessLimit
    else if maxWait < milliseconds then some .longLimit
    else none

def texts (c : Call) : List String :=
  c.command ++ c.directory.toList ++ c.environment.flatMap fun v => [v.1, v.2]

def hasNull (c : Call) : Bool :=
  c.texts.any Disk.hasNull

/-- What keeps a call from being carried out. Its texts are looked at before there is a process. -/
def fault? (c : Call) : Option CallFault :=
  if c.hasNull then some .nullByte else c.limit.bind limitFault?

end Call

end Assay
