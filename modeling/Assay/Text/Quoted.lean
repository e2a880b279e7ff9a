import Assay.Text.Printable

/-!
# Quoted text

How a message shows a text so that its ends and its invisible characters can be seen: between
quotes, with backslash escapes. Single quotes are used unless the text holds one and no double
quote.
-/

namespace Assay.Text

/-- `n` in lower-case hexadecimal, with at least `width` digits. -/
def hexDigits (width n : Nat) : List Char :=
  let ds := Nat.toDigits 16 n
  List.replicate (width - ds.length) '0' ++ ds

def escapeChar (mark c : Char) : List Char :=
  if c = mark || c = '\\' then ['\\', c]
  else if c = '\n' then ['\\', 'n']
  else if c = '\r' then ['\\', 'r']
  else if c = '\t' then ['\\', 't']
  else if isPrintable c then [c]
  else if c.toNat < 0x100 then '\\' :: 'x' :: hexDigits 2 c.toNat
  else if c.toNat < 0x10000 then '\\' :: 'u' :: hexDigits 4 c.toNat
  else '\\' :: 'U' :: hexDigits 8 c.toNat

def singleQuote : Char := Char.ofNat 39

def doubleQuote : Char := Char.ofNat 34

/-- The quotation mark that a text is shown between. -/
def quoteMark (cs : List Char) : Char :=
  if singleQuote ∈ cs && doubleQuote ∉ cs then doubleQuote else singleQuote

def quoted (s : String) : String :=
  let cs := s.toList
  let mark := quoteMark cs
  String.ofList (mark :: cs.flatMap (escapeChar mark) ++ [mark])

end Assay.Text
