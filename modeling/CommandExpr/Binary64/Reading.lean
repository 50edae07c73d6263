import CommandExpr.Binary64
import CommandExpr.Numeral

/-!
# Reading decimal numbers

A decimal numeral is an optional sign, digits with an optional point among them or at either end,
and an optional exponent; at least one digit stands before the exponent, and digits of an exponent
that is out of all bounds already do not count. It is read as the binary64
number nearest to its exact value. `inf`, `infinity` and `nan` are read in any case.

## Main definitions

* `Decimal` — a numeral taken apart: sign, digits as a whole number, power of ten
* `Decimal.ofChars?` — the numeral, or none
* `Binary64.ofText?` — the number nearest to a numeral, or a named special
-/

namespace CommandExpr

/-- The exact number `±coefficient · 10^exponent`. -/
structure Decimal where
  /-- Is it below zero, or zero with a minus sign? -/
  negative : Bool
  /-- The digits, read as a whole number. -/
  coefficient : Nat
  /-- The power of ten. -/
  exponent : Int
  deriving DecidableEq

namespace Decimal

/-- The sign in front of a numeral, and what follows it. -/
def sign : List Char → Bool × List Char
  | '-' :: rest => (true, rest)
  | '+' :: rest => (false, rest)
  | s => (false, s)

/-- Is it an ASCII digit? -/
def isDigit (c : Char) : Bool := (Numeral.digit? c).isSome

/-- Once an exponent has reached this, its further digits do not count. -/
def exponentLimit : Nat := 65536

/-- An exponent with a further digit. -/
def pushExponent (n : Nat) (c : Char) : Nat :=
  if n < exponentLimit then 10 * n + (c.toNat - '0'.toNat) else n

/-- The number of an exponent after its letter: an optional sign and at least one digit. -/
def exponentNumber? (s : List Char) : Option Int :=
  let (negative, digits) := sign s
  if digits.isEmpty || !digits.all isDigit then none
  else
    let n := digits.foldl pushExponent 0
    some (if negative then -n else n)

/-- The exponent part: nothing, or `e` or `E` and a whole number. -/
def exponent? : List Char → Option Int
  | [] => some 0
  | 'e' :: rest => exponentNumber? rest
  | 'E' :: rest => exponentNumber? rest
  | _ => none

/-- The digits before the point, the digits after it, and the exponent part. -/
def split (s : List Char) : List Char × List Char × List Char :=
  let whole := s.takeWhile isDigit
  match s.dropWhile isDigit with
  | '.' :: rest => (whole, rest.takeWhile isDigit, rest.dropWhile isDigit)
  | rest => (whole, [], rest)

/-- The numeral, if the text is one. -/
def ofChars? (s : List Char) : Option Decimal :=
  let (negative, body) := sign s
  let (whole, fraction, tail) := split body
  match Numeral.digits? (whole ++ fraction), exponent? tail with
  | some coefficient, some e =>
    some ⟨negative, coefficient, e - fraction.length⟩
  | _, _ => none

/-- Past this power of ten a number with at least one unit is infinite, and below its negative a
number under ten is zero: the finite numbers lie between 10⁻³²⁴ and 10³⁰⁹. -/
def decidedExponent : Int := 400

/-- The nearest binary64 number. The order of magnitude settles the extreme cases before any power
of ten is built. -/
def toBinary64 (d : Decimal) : Binary64 :=
  let magnitude : Int := d.exponent + (Nat.toDigits 10 d.coefficient).length
  if d.coefficient = 0 || magnitude < -decidedExponent then .ofMagnitude d.negative 0
  else if decidedExponent < magnitude then .infinity d.negative
  else if 0 ≤ d.exponent then .ofRatio d.negative (d.coefficient * 10 ^ d.exponent.toNat) 1
  else .ofRatio d.negative d.coefficient (10 ^ (-d.exponent).toNat)

end Decimal

/-- The number that a text names: a special by name, or the number nearest to a numeral. -/
def Binary64.ofText? (s : List Char) : Option Binary64 :=
  let (negative, body) := Decimal.sign s
  let name := body.map Char.toLower
  if name = ['i', 'n', 'f'] || name = ['i', 'n', 'f', 'i', 'n', 'i', 't', 'y'] then
    some (.infinity negative)
  else if name = ['n', 'a', 'n'] then some (.nan negative)
  else (Decimal.ofChars? s).map Decimal.toBinary64

end CommandExpr
