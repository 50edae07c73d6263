import CommandExpr.Power

/-!
# Binary64

Floating-point numbers by their 64 bits: one sign bit, eleven exponent bits, fifty-two fraction bits.
All arithmetic here is exact arithmetic on natural numbers; the magnitude of a finite number is a
whole multiple (`Binary64.units`) of the least positive one, 2⁻¹⁰⁷⁴.

## Main definitions

* `Binary64.units` — the magnitude of a finite number, in units of 2⁻¹⁰⁷⁴
* `roundDiv` — a quotient rounded to the nearest whole number, ties to even
* `Binary64.ofRatio` — the number nearest to a ratio, ties to even, infinite past the largest
* `Binary64.agrees` — equality as numbers: NaN differs from itself, the two zeros are equal
-/

namespace CommandExpr

/-- The quotient `num / den` rounded to the nearest whole number, a tie going to the even one. -/
def roundDiv (num den : Nat) : Nat :=
  let q := num / den
  let r := num % den
  if 2 * r < den then q
  else if den < 2 * r then q + 1
  else if q % 2 = 0 then q else q + 1

/-- A binary64 floating-point number, by its bits. -/
structure Binary64 where
  /-- Sign, exponent and fraction, from the top bit down. -/
  bits : UInt64
  deriving DecidableEq

namespace Binary64

/-- The number of fraction values of one exponent. -/
def fractionCount : Nat := 2 ^ 52

/-- The exponent field of the infinities and of NaN. -/
def specialExponent : Nat := 2047

/-- The bits below the sign. -/
def magnitudeBits (x : Binary64) : Nat := x.bits.toNat % 2 ^ 63

/-- Is the sign bit set? -/
def isNegative (x : Binary64) : Bool := 2 ^ 63 ≤ x.bits.toNat

/-- The biased exponent. -/
def exponentField (x : Binary64) : Nat := x.magnitudeBits / fractionCount

/-- The fraction field. -/
def fractionField (x : Binary64) : Nat := x.magnitudeBits % fractionCount

/-- Is it not a number? -/
def isNaN (x : Binary64) : Bool := x.exponentField = specialExponent && x.fractionField ≠ 0

/-- Is it one of the two infinities? -/
def isInfinite (x : Binary64) : Bool := x.exponentField = specialExponent && x.fractionField = 0

/-- Is it a finite number? -/
def isFinite (x : Binary64) : Bool := x.exponentField ≠ specialExponent

/-- The magnitude of a finite number, in units of 2⁻¹⁰⁷⁴. -/
def units (x : Binary64) : Nat :=
  if x.exponentField = 0 then x.fractionField
  else (x.fractionField + fractionCount) * 2 ^ (x.exponentField - 1)

/-- How many units make one. -/
def unitsPerOne : Nat := 2 ^ 1074

/-- The number with the given sign and the given bits below it. -/
def ofMagnitude (negative : Bool) (magnitude : Nat) : Binary64 :=
  ⟨UInt64.ofNat (magnitude + if negative then 2 ^ 63 else 0)⟩

/-- The bits of positive infinity. -/
def infiniteBits : Nat := specialExponent * fractionCount

/-- An infinity. -/
def infinity (negative : Bool) : Binary64 := ofMagnitude negative infiniteBits

/-- A quiet NaN. -/
def nan (negative : Bool) : Binary64 := ofMagnitude negative (infiniteBits + 2 ^ 51)

/-- The number nearest to `num / den`, a tie going to the even fraction; infinite if that would be
past the largest finite number. With `k` the number of low bits that do not fit beside fifty-three
significant ones, the fraction is the ratio in units of 2ᵏ⁻¹⁰⁷⁴, and since a carry out of the
fraction goes into the exponent, the bits are `k · 2⁵²` plus it. -/
def ofRatio (negative : Bool) (num den : Nat) : Binary64 :=
  let whole := num * unitsPerOne / den
  let k := Nat.log2 whole - 52
  let magnitude := k * fractionCount + roundDiv (num * unitsPerOne) (den * 2 ^ k)
  ofMagnitude negative (min magnitude infiniteBits)

/-- Equality as numbers: NaN differs from everything, itself included, and the zeros are equal. -/
def agrees (x y : Binary64) : Bool :=
  !x.isNaN && !y.isNaN && (x.bits = y.bits || (x.magnitudeBits = 0 && y.magnitudeBits = 0))

end Binary64

end CommandExpr
