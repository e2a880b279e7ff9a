import Assay.Json.Literal
import Assay.Number.Binary64

/-!
# JSON values

The values that manifests and reports are written in. Objects keep their members in the order in
which the names first occurred, integers are unbounded, and the numbers of double precision include
the infinities and the number that is none.
-/

namespace Assay

inductive Json where
  | null
  | bool (b : Bool)
  | integer (n : Int)
  | number (x : Number.Binary64)
  | literal (l : Json.Literal)
  | array (items : List Json)
  | object (members : List (Json.Literal × Json))

namespace Json

instance : Inhabited Json := ⟨.null⟩

/-- A literal that is a text. -/
@[match_pattern, reducible] def text (s : String) : Json :=
  .literal (.whole s)

/-- `members` with `key` bound to `value`: in the place of an older member, else at the end. -/
def put {κ α : Type} [DecidableEq κ] (key : κ) (value : α) : List (κ × α) → List (κ × α)
  | [] => [(key, value)]
  | (k, v) :: rest => if k = key then (k, value) :: rest else (k, v) :: put key value rest

/-- Nothing, zero, and texts and collections without content. -/
def isVacant : Json → Bool
  | .null => true
  | .bool b => !b
  | .integer n => n == 0
  | .number (.finite _ m _) => m == 0
  | .number _ => false
  | .literal l => l.glyphs.isEmpty
  | .array items => items.isEmpty
  | .object members => members.isEmpty

/-- The word for a value's kind in messages. -/
def kindName : Json → String
  | .null => "NoneType"
  | .bool _ => "bool"
  | .integer _ => "int"
  | .number _ => "float"
  | .literal _ => "str"
  | .array _ => "list"
  | .object _ => "dict"

def text? : Json → Option String
  | .literal l => l.text?
  | _ => none

/-- The member of an object with this name. -/
def member? (members : List (Literal × Json)) (name : String) : Option Json :=
  members.lookup (.whole name)

/-! ## How messages show a value -/

mutual

/-- The text of a value inside a message; texts are quoted. -/
def shown : Json → String
  | .null => "None"
  | .bool true => "True"
  | .bool false => "False"
  | .integer n => Number.integerText n
  | .number x => x.text
  | .literal l => l.quoted
  | .array items => "[" ++ Text.joinWith ", " (shownItems items) ++ "]"
  | .object members => "\x7b" ++ Text.joinWith ", " (shownMembers members) ++ "\x7d"

def shownItems : List Json → List String
  | [] => []
  | v :: rest => v.shown :: shownItems rest

def shownMembers : List (Literal × Json) → List String
  | [] => []
  | (k, v) :: rest => (k.quoted ++ ": " ++ v.shown) :: shownMembers rest

end

/-- The text of a value that stands alone: a text is shown as it is. -/
def display : Json → String
  | .literal l => l.display
  | v => v.shown

@[simp] theorem put_nil {κ α : Type} [DecidableEq κ] (k : κ) (v : α) : put k v [] = [(k, v)] := rfl

/-- The member that was put is found. -/
theorem lookup_put {κ α : Type} [DecidableEq κ] (k : κ) (v : α) (ms : List (κ × α)) :
    (put k v ms).lookup k = some v := by
  induction ms with
  | nil => simp [put]
  | cons m rest ih =>
    obtain ⟨k', v'⟩ := m
    by_cases h : k' = k
    · simp [put, h]
    · simp [put, h, List.lookup_cons, beq_false_of_ne (Ne.symm h), ih]

end Json

end Assay
