import Assay.Text.Quoted
import Assay.Text.Search

/-!
# String literals

JSON writes text in units of sixteen bits, and an escape may name half of a surrogate pair whose
other half is missing. A literal is therefore either a text, or a list of glyphs some of which are
such halves. `ofGlyphs_chars` says that characters alone make a text.

A literal is kept as it is where values are read, written and compared. Where one becomes a path, a
package or a name in a message, it is displayed as a Unicode text, in which a replacement stands for
every half.
-/

namespace Assay.Json

/-- A character, or half of a surrogate pair that stands alone. -/
inductive Glyph where
  | char (c : Char)
  | half (unit : Nat)
  deriving DecidableEq, Repr

inductive Literal where
  | whole (s : String)
  | ragged (glyphs : List Glyph)
  deriving DecidableEq, Repr

instance : Coe String Literal := ⟨.whole⟩

instance : Inhabited Literal := ⟨.whole ""⟩

def Glyph.char? : Glyph → Option Char
  | .char c => some c
  | .half _ => none

/-- What stands for a half where only characters can stand. -/
def Glyph.approximate : Glyph → Char
  | .char c => c
  | .half _ => Char.ofNat 0xFFFD

def Glyph.escape (mark : Char) : Glyph → List Char
  | .char c => Text.escapeChar mark c
  | .half unit => '\\' :: 'u' :: Text.hexDigits 4 unit

namespace Literal

/-- The literal that glyphs spell. -/
def ofGlyphs (glyphs : List Glyph) : Literal :=
  match glyphs.mapM Glyph.char? with
  | some cs => .whole (String.ofList cs)
  | none => .ragged glyphs

def glyphs : Literal → List Glyph
  | .whole s => s.toList.map .char
  | .ragged gs => gs

/-- The text of a literal that is one. -/
def text? : Literal → Option String
  | .whole s => some s
  | .ragged _ => none

/-- The text of a literal, with a replacement for every half. -/
def display : Literal → String
  | .whole s => s
  | .ragged gs => String.ofList (gs.map Glyph.approximate)

/-- The literal as a message shows it; halves are escaped. -/
def quoted : Literal → String
  | .whole s => Text.quoted s
  | .ragged gs =>
    let mark := Text.quoteMark (gs.map Glyph.approximate)
    String.ofList (mark :: gs.flatMap (Glyph.escape mark) ++ [mark])

/-- Whether the text `s` is a part of the literal. -/
def holds (s : String) : Literal → Bool
  | .whole t => Text.contains s t
  | .ragged gs => Text.isInfix (s.toList.map Glyph.char) gs

theorem ofGlyphs_chars (cs : List Char) :
    ofGlyphs (cs.map Glyph.char) = .whole (String.ofList cs) := by
  have h : (cs.map Glyph.char).mapM Glyph.char? = some cs := by
    induction cs with
    | nil => rfl
    | cons c rest ih => simp [ih, Glyph.char?]
  simp [ofGlyphs, h]

end Literal

end Assay.Json
