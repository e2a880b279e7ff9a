import Assay.Text.Search
import Assay.Text.Encoding

/-!
# The disk

A disk is a finite map from locations to entries; a location is the list of names that leads from
the root to the entry without following links. The root is a directory and has no entry of its own.
Entries are kept under a key, their location with its depth, since depths are compared at once.

`get?` is the view through which everything else is stated: `get?_insert`, `get?_erase` and
`get?_prune` say what the three ways of changing a disk do to it.
-/

namespace Assay

/-- The names that lead from the root to an entry. -/
abbrev Location := List String

inductive Entry where
  | directory
  | file (content : Text.Bytes)
  | link (target : String)
  deriving DecidableEq, Repr

/-- A location and its depth. -/
abbrev DiskKey := Nat × Location

/-- The entries of a file system, and the directory that relative paths start from. -/
structure Disk where
  entries : List (DiskKey × Entry)
  here : Location
  deriving Repr

namespace Disk

def keyOf (loc : Location) : DiskKey :=
  (loc.length, loc)

/-- What is at a location. -/
def get? (d : Disk) (loc : Location) : Option Entry :=
  if loc = [] then some .directory else d.entries.lookup (keyOf loc)

/-- The entries under keys other than those of class `p`. -/
def without (p : DiskKey → Bool) (entries : List (DiskKey × Entry)) : List (DiskKey × Entry) :=
  entries.filter fun e => !p e.1

/-- `entry` put at `loc`, in place of what was there. -/
def insert (d : Disk) (loc : Location) (entry : Entry) : Disk :=
  { d with entries := (keyOf loc, entry) :: without (· == keyOf loc) d.entries }

/-- Nothing at `loc`. -/
def erase (d : Disk) (loc : Location) : Disk :=
  { d with entries := without (· == keyOf loc) d.entries }

/-- Whether `below` lies strictly below `loc`. -/
def isBelow (loc below : Location) : Bool :=
  loc.isPrefixOf below && loc != below

/-- Nothing strictly below `loc`. -/
def prune (d : Disk) (loc : Location) : Disk :=
  { d with entries := without (fun key => isBelow loc key.2) d.entries }

/-- Every entry with its location. -/
def located (d : Disk) : List (Location × Entry) :=
  d.entries.map fun e => (e.1.2, e.2)

/-- The names of the entries of a directory. -/
def childNames (d : Disk) (loc : Location) : List String :=
  d.located.filterMap fun e =>
    if e.1 ≠ [] && e.1.dropLast = loc then e.1.getLast? else none

@[simp] theorem keyOf_inj {loc l : Location} : keyOf l = keyOf loc ↔ l = loc := by
  constructor
  · intro h
    simpa [keyOf] using congrArg Prod.snd h
  · rintro rfl
    rfl

theorem lookup_without {p : DiskKey → Bool} {es : List (DiskKey × Entry)} {loc : DiskKey} :
    (without p es).lookup loc = if p loc then none else es.lookup loc := by
  induction es with
  | nil => simp [without]
  | cons e rest ih =>
    obtain ⟨l, v⟩ := e
    simp only [without] at ih ⊢
    by_cases hl : loc = l
    · subst hl
      by_cases hp : p loc
      · simp [hp, ih]
      · simp [hp]
    · have hb : (loc == l) = false := beq_false_of_ne hl
      by_cases hp : p l
      · simp [hp, ih, List.lookup_cons, hb]
      · simp [hp, ih, List.lookup_cons, hb]

@[simp] theorem get?_root (d : Disk) : d.get? [] = some .directory := by
  simp [get?]

theorem get?_insert {d : Disk} {loc l : Location} {e : Entry} (h : l ≠ []) :
    (d.insert loc e).get? l = if l = loc then some e else d.get? l := by
  by_cases hl : l = loc
  · subst hl
    simp [get?, insert, h]
  · have hk : keyOf l ≠ keyOf loc := fun e => hl (keyOf_inj.mp e)
    simp [get?, insert, h, hl, List.lookup_cons, beq_false_of_ne hk, lookup_without]

theorem get?_erase {d : Disk} {loc l : Location} (h : l ≠ []) :
    (d.erase loc).get? l = if l = loc then none else d.get? l := by
  simp [get?, erase, h, lookup_without]

theorem get?_prune {d : Disk} {loc l : Location} (h : l ≠ []) :
    (d.prune loc).get? l = if isBelow loc l then none else d.get? l := by
  simp [get?, prune, h, lookup_without, keyOf]

theorem isBelow_iff {loc below : Location} :
    isBelow loc below = true ↔ loc <+: below ∧ loc ≠ below := by
  simp [isBelow]

end Disk

end Assay
