import Assay.Json.Basic

/-!
# Writing JSON

One line of ASCII: a comma and a blank between items, a colon and a blank after a name. In strings
the quote, the backslash, control characters and all that is not ASCII are escaped; a character
beyond the first plane becomes a surrogate pair.
-/

namespace Assay.Json

def unitEscape (n : Nat) : List Char :=
  '\\' :: 'u' :: Text.hexDigits 4 n

def escapeChar (c : Char) : List Char :=
  if c = '"' then ['\\', '"']
  else if c = '\\' then ['\\', '\\']
  else if c = '\n' then ['\\', 'n']
  else if c = '\r' then ['\\', 'r']
  else if c = '\t' then ['\\', 't']
  else if c.toNat = 8 then ['\\', 'b']
  else if c.toNat = 12 then ['\\', 'f']
  else if 32 ≤ c.toNat && c.toNat < 127 then [c]
  else if c.toNat < 0x10000 then unitEscape c.toNat
  else
    let n := c.toNat - 0x10000
    unitEscape (0xD800 + n / 0x400) ++ unitEscape (0xDC00 + n % 0x400)

def escapeGlyph : Glyph → List Char
  | .char c => escapeChar c
  | .half unit => unitEscape unit

def printString (l : Literal) : List Char :=
  '"' :: l.glyphs.flatMap escapeGlyph ++ ['"']

def printNumber (x : Number.Binary64) : List Char :=
  match x with
  | .nan => "NaN".toList
  | .infinite negative => (Number.Binary64.signText negative ++ "Infinity").toList
  | x => x.text.toList

mutual

def print : Json → List Char
  | .null => "null".toList
  | .bool true => "true".toList
  | .bool false => "false".toList
  | .integer n => (Number.integerText n).toList
  | .number x => printNumber x
  | .literal l => printString l
  | .array items => '[' :: printItems items ++ [']']
  | .object members => '\x7b' :: printMembers members ++ ['\x7d']

/-- The items of an array with a comma and a blank between them. -/
def printItems : List Json → List Char
  | [] => []
  | [v] => v.print
  | v :: rest => v.print ++ ',' :: ' ' :: printItems rest

/-- The members of an object with a comma and a blank between them. -/
def printMembers : List (Literal × Json) → List Char
  | [] => []
  | [(k, v)] => printString k ++ ':' :: ' ' :: v.print
  | (k, v) :: rest => printString k ++ ':' :: ' ' :: v.print ++ ',' :: ' ' :: printMembers rest

end

def render (v : Json) : String :=
  String.ofList v.print

end Assay.Json
