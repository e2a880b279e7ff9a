/-!
# Given values

What a setting was given. On a command line the separator is never kept as a value, so a switch
whose attached value is the separator has been given, but given nothing. A setting that is nothing
is found out when the run first needs it.
-/

namespace Assay

inductive Given (α : Type) where
  | value (a : α)
  | nothing
  deriving DecidableEq, Repr

namespace Given

variable {α β : Type}

def value? : Given α → Option α
  | .value a => some a
  | .nothing => none

def getD (g : Given α) (default : α) : α :=
  g.value?.getD default

def isNothing : Given α → Bool
  | .value _ => false
  | .nothing => true

/-- The value that a reader finds in what was given; nothing stays nothing. -/
def read {ε : Type} (reader : α → Except ε β) : Given α → Except ε (Given β)
  | .value a => (reader a).map .value
  | .nothing => .ok .nothing

def map (f : α → β) : Given α → Given β
  | .value a => .value (f a)
  | .nothing => .nothing

@[simp] theorem getD_value (a default : α) : (Given.value a).getD default = a := rfl

end Given

end Assay
