import Assay.Json.Basic

/-!
# Reading JSON

`Json.parse` reads one value with blanks around it. Beyond the standard it accepts the words for
infinity and for no number. A fault says what was expected and where: lines and columns count from
one, offsets from zero, all in characters. Values nested too deep are refused; how deep that is, is
for the caller to say.

The readers return what is left of the text. Their first argument bounds the number of steps; the
length of the text is always enough, since every step but the one into a value takes a character.
-/

namespace Assay.Json

/-- What the reader complains about. -/
inductive Complaint where
  | expectedValue
  | expectedComma
  | expectedColon
  | expectedName
  | unterminatedString
  | controlCharacter
  | unknownEscape
  | badUnicodeEscape
  | extraData
  | byteOrderMark
  deriving DecidableEq, Repr

def Complaint.message : Complaint → String
  | .expectedValue => "Expecting value"
  | .expectedComma => "Expecting ',' delimiter"
  | .expectedColon => "Expecting ':' delimiter"
  | .expectedName => "Expecting property name enclosed in double quotes"
  | .unterminatedString => "Unterminated string starting at"
  | .controlCharacter => "Invalid control character at"
  | .unknownEscape => "Invalid \\escape"
  | .badUnicodeEscape => "Invalid \\uXXXX escape"
  | .extraData => "Extra data"
  | .byteOrderMark => "Unexpected UTF-8 BOM (decode using utf-8-sig)"

/-- Why a text was not read. -/
inductive Fault where
  | malformed (what : Complaint) (line column offset : Nat)
  | tooManyDigits (count : Nat)
  | tooDeep
  deriving DecidableEq, Repr

/-- A fault met by the readers, placed by the number of characters left. -/
inductive Halt where
  | complain (what : Complaint) (left : Nat)
  | tooManyDigits (count : Nat)
  | tooDeep
  deriving DecidableEq, Repr

/-- The deepest nesting of arrays and objects that is usually read. -/
def usualDepth : Nat := 990

def isSpace (c : Char) : Bool :=
  c = ' ' || c = '\t' || c = '\n' || c = '\r'

def skipSpace (cs : List Char) : List Char :=
  cs.dropWhile isSpace

/-! ## Strings -/

def hexValue? (c : Char) : Option Nat :=
  if c.isDigit then some (c.toNat - 48)
  else if 'a' ≤ c && c ≤ 'f' then some (c.toNat - 87)
  else if 'A' ≤ c && c ≤ 'F' then some (c.toNat - 55)
  else none

def hexUnit? (a b c d : Char) : Option Nat := do
  let a ← hexValue? a
  let b ← hexValue? b
  let c ← hexValue? c
  let d ← hexValue? d
  return ((a * 16 + b) * 16 + c) * 16 + d

def isHighSurrogate (n : Nat) : Bool := 0xD800 ≤ n && n < 0xDC00

def isLowSurrogate (n : Nat) : Bool := 0xDC00 ≤ n && n < 0xE000

/-- A code unit that stands alone. -/
def unitGlyph (n : Nat) : Glyph :=
  if isHighSurrogate n || isLowSurrogate n then .half n else .char (Char.ofNat n)

def pairChar (high low : Nat) : Char :=
  Char.ofNat (0x10000 + (high - 0xD800) * 0x400 + (low - 0xDC00))

def simpleEscape? (c : Char) : Option Char :=
  if c = '"' || c = '\\' || c = '/' then some c
  else if c = 'b' then some (Char.ofNat 8)
  else if c = 'f' then some (Char.ofNat 12)
  else if c = 'n' then some '\n'
  else if c = 'r' then some '\r'
  else if c = 't' then some '\t'
  else none

/-- Adds a glyph in front of the string that a reader returned. -/
def consGlyph (g : Glyph) (r : Except Halt (List Glyph × List Char)) :
    Except Halt (List Glyph × List Char) :=
  r.map fun (s, rest) => (g :: s, rest)

/-- A glyph by its code units in hexadecimal, after the escape's letter. At least one character
must follow. -/
def readUnicode : List Char → Except Halt (Glyph × List Char)
  | a :: b :: c :: d :: e :: rest =>
    match hexUnit? a b c d with
    | none => .error (.complain .badUnicodeEscape (rest.length + 6))
    | some unit =>
      if isHighSurrogate unit then
        match e, rest with
        | '\\', 'u' :: a :: b :: c :: d :: f :: more =>
          match hexUnit? a b c d with
          | none => .error (.complain .badUnicodeEscape (more.length + 6))
          | some low =>
            if isLowSurrogate low then .ok (.char (pairChar unit low), f :: more)
            else .ok (unitGlyph unit, e :: rest)
        | _, _ => .ok (unitGlyph unit, e :: rest)
      else .ok (unitGlyph unit, e :: rest)
  | cs => .error (.complain .badUnicodeEscape (cs.length + 1))

theorem length_lt_of_readUnicode {cs rest : List Char} {g : Glyph}
    (h : readUnicode cs = .ok (g, rest)) : rest.length < cs.length := by
  unfold readUnicode at h
  split at h
  · split at h
    · simp at h
    · split at h
      · split at h
        · split at h
          · simp at h
          · split at h <;> simp only [Except.ok.injEq, Prod.mk.injEq] at h <;> simp [← h.2]
        · simp only [Except.ok.injEq, Prod.mk.injEq] at h
          simp [← h.2]
      · simp only [Except.ok.injEq, Prod.mk.injEq] at h
        simp [← h.2]
  · simp at h

/-- The rest of a string literal after its opening quote, which stood with `start` characters
left. -/
def readString (start : Nat) (cs : List Char) : Except Halt (List Glyph × List Char) :=
  match cs with
  | [] => .error (.complain .unterminatedString start)
  | '"' :: rest => .ok ([], rest)
  | ['\\'] => .error (.complain .unterminatedString start)
  | '\\' :: 'u' :: more =>
    match h : readUnicode more with
    | .error e => .error e
    | .ok (g, rest) =>
      have := length_lt_of_readUnicode h
      consGlyph g (readString start rest)
  | '\\' :: c :: rest =>
    match simpleEscape? c with
    | none => .error (.complain .unknownEscape (rest.length + 2))
    | some c => consGlyph (.char c) (readString start rest)
  | c :: rest =>
    if c.toNat < 32 then .error (.complain .controlCharacter (rest.length + 1))
    else consGlyph (.char c) (readString start rest)
termination_by cs.length

/-! ## Numbers -/

/-- A fraction: a point and at least one digit. -/
def takeFraction : List Char → List Char × List Char
  | '.' :: d :: rest =>
    if d.isDigit then
      ('.' :: d :: rest.takeWhile Char.isDigit, rest.dropWhile Char.isDigit)
    else ([], '.' :: d :: rest)
  | cs => ([], cs)

/-- An exponent: the letter, an optional sign and at least one digit. -/
def takeExponent (cs : List Char) : List Char × List Char :=
  match cs with
  | mark :: rest =>
    if mark = 'e' || mark = 'E' then
      let (sign, rest) :=
        match rest with
        | '-' :: rest => (['-'], rest)
        | '+' :: rest => (['+'], rest)
        | _ => ([], rest)
      let digits := rest.takeWhile Char.isDigit
      if digits.isEmpty then ([], cs) else (mark :: sign ++ digits, rest.dropWhile Char.isDigit)
    else ([], cs)
  | [] => ([], cs)

/-- The whole digits of a number: a zero alone, or digits that do not begin with zero. -/
def takeWhole : List Char → List Char × List Char
  | [] => ([], [])
  | c :: rest =>
    if c = '0' then ([c], rest)
    else ((c :: rest).takeWhile Char.isDigit, (c :: rest).dropWhile Char.isDigit)

/-- A number; it is an integer if it has neither fraction nor exponent. -/
def readNumber (cs : List Char) : Except Halt (Json × List Char) :=
  let (negative, body) :=
    match cs with
    | '-' :: rest => (true, rest)
    | _ => (false, cs)
  let (whole, rest) := takeWhole body
  let (fraction, rest) := takeFraction rest
  let (exponent, rest) := takeExponent rest
  if whole.isEmpty then .error (.complain .expectedValue cs.length)
  else if fraction.isEmpty && exponent.isEmpty then
    if Number.maxDigits < whole.length then .error (.tooManyDigits whole.length)
    else
      .ok (.integer (Number.signed negative
        (Number.ofDigits (whole.filterMap Text.digitValue?))), rest)
  else
    match Number.readDecimal negative (whole ++ fraction ++ exponent) with
    | some x => .ok (.number x, rest)
    | none => .error (.complain .expectedValue cs.length)

/-! ## Values -/

/-- A value that is one word. -/
def readWord? : List Char → Option (Json × List Char)
  | 'n' :: 'u' :: 'l' :: 'l' :: rest => some (.null, rest)
  | 't' :: 'r' :: 'u' :: 'e' :: rest => some (.bool true, rest)
  | 'f' :: 'a' :: 'l' :: 's' :: 'e' :: rest => some (.bool false, rest)
  | 'N' :: 'a' :: 'N' :: rest => some (.number .nan, rest)
  | 'I' :: 'n' :: 'f' :: 'i' :: 'n' :: 'i' :: 't' :: 'y' :: rest =>
    some (.number (.infinite false), rest)
  | '-' :: 'I' :: 'n' :: 'f' :: 'i' :: 'n' :: 'i' :: 't' :: 'y' :: rest =>
    some (.number (.infinite true), rest)
  | _ => none

mutual

def readValue : Nat → Nat → List Char → Except Halt (Json × List Char)
  | 0, _, _ => .error .tooDeep
  | fuel + 1, depth, cs =>
    match cs with
    | '"' :: rest =>
      (readString cs.length rest).map fun (s, rest) => (.literal (.ofGlyphs s), rest)
    | '[' :: rest =>
      match depth with
      | 0 => .error .tooDeep
      | depth + 1 =>
        match skipSpace rest with
        | ']' :: rest => .ok (.array [], rest)
        | rest => (readItems fuel depth rest).map fun (items, rest) => (.array items, rest)
    | '\x7b' :: rest =>
      match depth with
      | 0 => .error .tooDeep
      | depth + 1 =>
        match skipSpace rest with
        | '\x7d' :: rest => .ok (.object [], rest)
        | rest =>
          (readMembers fuel depth [] rest).map fun (members, rest) => (.object members, rest)
    | _ =>
      match readWord? cs with
      | some found => .ok found
      | none => readNumber cs

/-- The items of an array up to and with its closing bracket. -/
def readItems : Nat → Nat → List Char → Except Halt (List Json × List Char)
  | 0, _, _ => .error .tooDeep
  | fuel + 1, depth, cs =>
    match readValue fuel depth cs with
    | .error e => .error e
    | .ok (item, rest) =>
      match skipSpace rest with
      | ']' :: rest => .ok ([item], rest)
      | ',' :: rest =>
        (readItems fuel depth (skipSpace rest)).map fun (items, rest) => (item :: items, rest)
      | rest => .error (.complain .expectedComma rest.length)

/-- The members of an object up to and with its closing brace, added to those already read. -/
def readMembers : Nat → Nat → List (Literal × Json) → List Char →
    Except Halt (List (Literal × Json) × List Char)
  | 0, _, _, _ => .error .tooDeep
  | fuel + 1, depth, members, cs =>
    match cs with
    | '"' :: rest =>
      match readString cs.length rest with
      | .error e => .error e
      | .ok (name, rest) =>
        match skipSpace rest with
        | ':' :: rest =>
          match readValue fuel depth (skipSpace rest) with
          | .error e => .error e
          | .ok (value, rest) =>
            let members := put (Literal.ofGlyphs name) value members
            match skipSpace rest with
            | '\x7d' :: rest => .ok (members, rest)
            | ',' :: rest => readMembers fuel depth members (skipSpace rest)
            | rest => .error (.complain .expectedComma rest.length)
        | rest => .error (.complain .expectedColon rest.length)
    | _ => .error (.complain .expectedName cs.length)

end

/-! ## Whole texts -/

/-- Places a fault in the text `cs`. -/
def Halt.locate (cs : List Char) : Halt → Fault
  | .complain what left =>
    let offset := cs.length - left
    let before := cs.take offset
    let column := (before.reverse.takeWhile fun c => c ≠ '\n').length + 1
    .malformed what (before.count '\n' + 1) column offset
  | .tooManyDigits count => .tooManyDigits count
  | .tooDeep => .tooDeep

/-- A value of at most this depth with blanks around it, and nothing else. -/
def readWhole (depth : Nat) (cs : List Char) : Except Halt Json :=
  if cs.head? = some (Char.ofNat 0xFEFF) then .error (.complain .byteOrderMark cs.length)
  else
    match readValue (2 * cs.length + 2) depth (skipSpace cs) with
    | .error e => .error e
    | .ok (value, rest) =>
      match skipSpace rest with
      | [] => .ok value
      | rest => .error (.complain .extraData rest.length)

def parse (s : String) (depth : Nat := usualDepth) : Except Fault Json :=
  match readWhole depth s.toList with
  | .ok v => .ok v
  | .error e => .error (e.locate s.toList)

end Assay.Json
