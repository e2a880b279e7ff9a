import Assay.Number.Integer

/-!
# Binary64 numbers

Double-precision numbers by their exact value: a sign, a mantissa below `2 ^ 53` and a power of
two. Rounding works on fractions of natural numbers, so every step is exact: `ofFraction` rounds to
nearest with ties to even, `shortest` finds the fewest decimal digits that read back, and `tenths`
rounds to one decimal place.
-/

namespace Assay.Number

/-- A double-precision number; `finite s m e` is `m * 2 ^ e`, negated if `s`. -/
inductive Binary64 where
  | finite (negative : Bool) (mantissa : Nat) (exponent : Int)
  | infinite (negative : Bool)
  | nan
  deriving DecidableEq, Repr

namespace Binary64

def minExponent : Int := -1074

def maxExponent : Int := 971

def zero (negative : Bool) : Binary64 :=
  .finite negative 0 minExponent

/-- The fraction `num / den` times `2 ^ (-e)`, as a fraction. -/
def scale (num den : Nat) (e : Int) : Nat × Nat :=
  if 0 ≤ e then (num, den * Nat.pow 2 e.toNat) else (num * Nat.pow 2 (-e).toNat, den)

/-- The natural number nearest to `num / den`; a tie goes to the even one. -/
def roundEven (num den : Nat) : Nat :=
  let q := num / den
  let r := num % den
  if den < 2 * r || (2 * r = den && q % 2 = 1) then q + 1 else q

/-- The exponent at which `num / den` has a mantissa of 53 bits, or the least exponent there is. -/
def exponentOf (num den : Nat) : Int :=
  let guess : Int := (num.log2 : Int) - den.log2 - 53
  let scaled := scale num den guess
  let exact := if Nat.pow 2 53 ≤ scaled.1 / scaled.2 then guess + 1 else guess
  max exact minExponent

/-- The number nearest to `num / den`, ties to even; too large ones are infinite. -/
def ofFraction (negative : Bool) (num den : Nat) : Binary64 :=
  if num = 0 then zero negative
  else
    let e := exponentOf num den
    let scaled := scale num den e
    let m := roundEven scaled.1 scaled.2
    let (m, e) := if m = Nat.pow 2 53 then (Nat.pow 2 52, e + 1) else (m, e)
    if maxExponent < e then .infinite negative else .finite negative m e

/-- The number nearest to `digits * 10 ^ exponent`. Exponents far outside of the range are settled
without computing the power. -/
def ofDecimal (negative : Bool) (digits : Nat) (exponent : Int) : Binary64 :=
  let magnitude : Int := exponent + (Nat.toDigits 10 digits).length
  if digits = 0 then zero negative
  else if 400 < magnitude then .infinite negative
  else if magnitude < -400 then zero negative
  else if 0 ≤ exponent then ofFraction negative (digits * Nat.pow 10 exponent.toNat) 1
  else ofFraction negative digits (Nat.pow 10 (-exponent).toNat)

def ofInt (n : Int) : Binary64 :=
  ofFraction (n < 0) n.natAbs 1

/-- The value of a finite number without its sign, as a fraction. -/
def fraction (m : Nat) (e : Int) : Nat × Nat :=
  if 0 ≤ e then (m * Nat.pow 2 e.toNat, 1) else (m, Nat.pow 2 (-e).toNat)

/-- The integer part; `none` for infinities and the number that is none. -/
def truncate? : Binary64 → Option Int
  | .finite negative m e => some (signed negative ((fraction m e).1 / (fraction m e).2))
  | _ => none

/-! ## Decimal digits -/

/-- Whether `d * 10 ^ k` rounds to `m * 2 ^ e`. -/
def readsBack (m : Nat) (e : Int) (d : Nat) (k : Int) : Bool :=
  ofDecimal false d k == .finite false m e

/-- The better of the two neighbours of `num / den` on the grid of multiples of `10 ^ k`, if one of
them rounds to `m * 2 ^ e`; a tie goes to the even one. -/
def onGrid (m : Nat) (e : Int) (num den : Nat) (k : Int) : Option Nat :=
  let (n, d) := if 0 ≤ k then (num, den * Nat.pow 10 k.toNat) else (num * Nat.pow 10 (-k).toNat, den)
  let low := n / d
  let nearest := roundEven n d
  let other := if nearest = low then low + 1 else low
  if readsBack m e nearest k then some nearest
  else if readsBack m e other k then some other
  else none

/-- The first grid, from coarse to fine, that holds a decimal which reads back. -/
def searchGrid (m : Nat) (e : Int) (num den : Nat) : Nat → Int → Nat × Int
  | 0, k => (0, k)
  | fuel + 1, k =>
    match onGrid m e num den k with
    | some d => (d, k)
    | none => searchGrid m e num den fuel (k - 1)

/-- The number of digits before the decimal point of `num / den`, or a little more. -/
def decimalPoint (num den : Nat) : Int :=
  ((Nat.toDigits 10 num).length : Int) - (Nat.toDigits 10 den).length + 1

def dropTrailingZeros : Nat → Nat → Int → Nat × Int
  | 0, d, k => (d, k)
  | fuel + 1, d, k =>
    if d ≠ 0 && d % 10 = 0 then dropTrailingZeros fuel (d / 10) (k + 1) else (d, k)

/-- The shortest decimal `d * 10 ^ k` that rounds to `m * 2 ^ e`. -/
def shortest (m : Nat) (e : Int) : Nat × Int :=
  let (num, den) := fraction m e
  let (d, k) := searchGrid m e num den 30 (decimalPoint num den)
  dropTrailingZeros 400 d k

/-! ## Texts -/

def signText (negative : Bool) : String :=
  if negative then "-" else ""

/-- An exponent has a sign and at least two digits. -/
def exponentText (n : Int) : String :=
  let ds := Nat.toDigits 10 n.natAbs
  (if n < 0 then "e-" else "e+") ++ String.ofList (List.replicate (2 - ds.length) '0' ++ ds)

/-- The text of `d * 10 ^ k`: positional when the point falls from three places before the digits to
the sixteenth place after, and otherwise one digit, a fraction and an exponent. -/
def decimalText (d : Nat) (k : Int) : String :=
  let ds := Nat.toDigits 10 d
  let point : Int := ds.length + k
  if d = 0 then "0.0"
  else if -4 < point && point ≤ 16 then
    if point ≤ 0 then
      "0." ++ String.ofList (List.replicate (-point).toNat '0' ++ ds)
    else if (ds.length : Int) ≤ point then
      String.ofList (ds ++ List.replicate (point - ds.length).toNat '0') ++ ".0"
    else
      String.ofList (ds.take point.toNat) ++ "." ++ String.ofList (ds.drop point.toNat)
  else
    let tail := ds.drop 1
    String.ofList (ds.take 1) ++ (if tail.isEmpty then "" else "." ++ String.ofList tail) ++
      exponentText (point - 1)

/-- The shortest text that reads back as the number. -/
def text : Binary64 → String
  | .finite negative m e =>
    let (d, k) := if m = 0 then (0, 0) else shortest m e
    signText negative ++ decimalText d k
  | .infinite negative => signText negative ++ "inf"
  | .nan => "nan"

/-- The number with one decimal place; the exact value is rounded and a tie goes to the even
digit. -/
def oneDecimal : Binary64 → String
  | .finite negative m e =>
    let (num, den) := fraction m e
    let tenths := roundEven (num * 10) den
    signText negative ++ toString (tenths / 10) ++ "." ++ toString (tenths % 10)
  | .infinite negative => signText negative ++ "inf"
  | .nan => "nan"

end Binary64

/-! ## Reading -/

/-- Decimal digits with an optional fraction and exponent, after the sign. -/
def readDecimal (negative : Bool) (cs : List Char) : Option Binary64 :=
  let whole := cs.takeWhile Char.isDigit
  let afterWhole := cs.dropWhile Char.isDigit
  let (fractional, rest) :=
    match afterWhole with
    | '.' :: more => (more.takeWhile Char.isDigit, more.dropWhile Char.isDigit)
    | _ => ([], afterWhole)
  let digits := whole ++ fractional
  let value (exponent : Int) : Binary64 :=
    Binary64.ofDecimal negative (ofDigits (digits.filterMap Text.digitValue?))
      (exponent - fractional.length)
  if digits.isEmpty then none
  else
    match rest with
    | [] => some (value 0)
    | mark :: more =>
      let (down, power) := splitSign more
      if (mark = 'e' || mark = 'E') && !power.isEmpty && power.all Char.isDigit then
        some (value (signed down (ofDigits (power.filterMap Text.digitValue?))))
      else none

/-- Underscores are allowed between two ASCII digits only. -/
def dropUnderscores? : Bool → List Char → Option (List Char)
  | _, [] => some []
  | afterDigit, '_' :: rest =>
    if afterDigit && (rest.head?.elim false Char.isDigit) then dropUnderscores? false rest else none
  | _, c :: rest => (dropUnderscores? c.isDigit rest).map (c :: ·)

/-- A decimal digit of another script is read as the ASCII digit of its value. -/
def asciiDigit (c : Char) : Char :=
  match Text.digitValue? c with
  | some d => Char.ofNat (48 + d)
  | none => c

/-- The double-precision number that a text denotes: blanks around, a sign, and a decimal or one of
the words for infinity and for no number. -/
def readBinary64 (cs : List Char) : Option Binary64 :=
  let body := (Text.trimBy isNumberBlank cs).map asciiDigit
  match dropUnderscores? false body with
  | none => none
  | some plain =>
    let (negative, rest) := splitSign plain
    let word := String.ofList (rest.map Char.toLower)
    if word = "inf" || word = "infinity" then some (.infinite negative)
    else if word = "nan" then some .nan
    else readDecimal negative rest

end Assay.Number
