import Assay.Text.Search
import Assay.Text.Quoted

/-!
# Shell words

Commands are logged and written to scripts as a shell would read them back. A word of harmless
characters stays as it is; any other stands between single quotes, and a single quote inside is
taken out of them and put between double quotes.
-/

namespace Assay.Shell

/-- Characters that mean nothing special to a shell. -/
def isHarmless (c : Char) : Bool :=
  c.isAlphanum || c ∈ ['_', '@', '%', '+', '=', ':', ',', '.', '/', '-']

/-- A single quote between double quotes, outside of the single quotes around it. -/
def quotedQuote : List Char :=
  let s := Text.singleQuote
  [s, Text.doubleQuote, s, Text.doubleQuote, s]

def quoteChar (c : Char) : List Char :=
  if c = Text.singleQuote then quotedQuote else [c]

/-- One word. -/
def word (s : String) : String :=
  let cs := s.toList
  if !cs.isEmpty && cs.all isHarmless then s
  else String.ofList (Text.singleQuote :: cs.flatMap quoteChar ++ [Text.singleQuote])

/-- A command: its words with a blank between them. -/
def command (words : List String) : String :=
  Text.joinWith " " (words.map word)

end Assay.Shell
