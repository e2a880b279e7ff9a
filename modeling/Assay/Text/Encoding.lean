/-!
# Text as bytes

UTF-8 and Latin-1. Reading UTF-8 is a machine that is fed one byte at a time and waits for the
continuation bytes that the lead byte announced. Bytes that cannot be part of a character are
reported as `none`, one for each longest run of bytes that began a character and did not finish it.
`decodeLossy` shows each of these as the replacement character, `decodeValid` leaves them out and
`decode?` refuses the text.
-/

namespace Assay.Text

abbrev Bytes := List UInt8

/-- What the reader of UTF-8 has seen of an unfinished character: how many bytes are missing, the
value so far, and the range in which the next byte must lie. -/
inductive Pending where
  | idle
  | waiting (missing : Nat) (value : Nat) (low high : Nat)
  deriving DecidableEq, Repr

/-- A byte that begins a character. -/
def Pending.first (b : Nat) : List (Option Char) × Pending :=
  if b < 0x80 then ([some (Char.ofNat b)], .idle)
  else if b < 0xC2 then ([none], .idle)
  else if b < 0xE0 then ([], .waiting 1 (b - 0xC0) 0x80 0xBF)
  else if b = 0xE0 then ([], .waiting 2 0 0xA0 0xBF)
  else if b = 0xED then ([], .waiting 2 0xD 0x80 0x9F)
  else if b < 0xF0 then ([], .waiting 2 (b - 0xE0) 0x80 0xBF)
  else if b = 0xF0 then ([], .waiting 3 0 0x90 0xBF)
  else if b < 0xF4 then ([], .waiting 3 (b - 0xF0) 0x80 0xBF)
  else if b = 0xF4 then ([], .waiting 3 4 0x80 0x8F)
  else ([none], .idle)

/-- One byte further: the characters completed or given up, and what is pending afterwards. -/
def Pending.feed (p : Pending) (b : Nat) : List (Option Char) × Pending :=
  match p with
  | .idle => Pending.first b
  | .waiting missing value low high =>
    if low ≤ b && b ≤ high then
      let value := value * 64 + (b - 0x80)
      if missing ≤ 1 then ([some (Char.ofNat value)], .idle)
      else ([], .waiting (missing - 1) value 0x80 0xBF)
    else
      let (found, next) := Pending.first b
      (none :: found, next)

def decodeFrom (p : Pending) : Bytes → List (Option Char)
  | [] =>
    match p with
    | .idle => []
    | .waiting .. => [none]
  | b :: rest => (p.feed b.toNat).1 ++ decodeFrom (p.feed b.toNat).2 rest

def replacement : Char := Char.ofNat 0xFFFD

def decodeLossy (bytes : Bytes) : String :=
  String.ofList ((decodeFrom .idle bytes).map fun c => c.getD replacement)

/-- The text of valid UTF-8. -/
def decode? (bytes : Bytes) : Option String :=
  ((decodeFrom .idle bytes).mapM id).map String.ofList

/-- How many bytes are read before the one that shows the text to be invalid; none if only its end
does. -/
def faultyByte? (p : Pending) : Bytes → Option Nat
  | [] => none
  | b :: rest =>
    if (p.feed b.toNat).1.contains none then some 0
    else (faultyByte? (p.feed b.toNat).2 rest).map (· + 1)

/-- The characters that are complete. -/
def decodeValid (bytes : Bytes) : List Char :=
  (decodeFrom .idle bytes).filterMap id

def decodeLatin1 (bytes : Bytes) : String :=
  String.ofList (bytes.map fun b => Char.ofNat b.toNat)

def encode (s : String) : Bytes :=
  s.toList.flatMap String.utf8EncodeChar

end Assay.Text
