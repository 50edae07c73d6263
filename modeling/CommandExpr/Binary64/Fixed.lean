import CommandExpr.Binary64

/-!
# Fixed-point text

A floating-point number written with six fraction digits: its exact value rounded to a multiple of
10⁻⁶, a tie going to the even multiple. The sign is that of the sign bit, so a negative number that
rounds to zero keeps it.
-/

namespace CommandExpr.Binary64

/-- How many digits follow the point. -/
def fixedPlaces : Nat := 6

/-- The magnitude of a finite number, in units of 10⁻⁶, rounded to nearest with ties to even. -/
def fixedUnits (x : Binary64) : Nat := roundDiv (x.units * 10 ^ fixedPlaces) unitsPerOne

/-- The last `width` decimal digits of `n`, zeros in front included. -/
def lastDigits : Nat → Nat → List Char
  | 0, _ => []
  | width + 1, n => lastDigits width (n / 10) ++ [Nat.digitChar (n % 10)]

theorem length_lastDigits (width n : Nat) : (lastDigits width n).length = width := by
  induction width generalizing n with
  | zero => rfl
  | succ w ih => simp [lastDigits, ih]

/-- A count of 10⁻⁶ as a decimal number. -/
def fixedDigits (micros : Nat) : List Char :=
  Nat.toDigits 10 (micros / 10 ^ fixedPlaces)
    ++ '.' :: lastDigits fixedPlaces (micros % 10 ^ fixedPlaces)

/-- The number with six fraction digits; NaN and the infinities by name. -/
def fixed (x : Binary64) : String :=
  if x.isNaN then "nan"
  else if x.isInfinite then (if x.isNegative then "-inf" else "inf")
  else String.ofList ((if x.isNegative then ['-'] else []) ++ fixedDigits x.fixedUnits)

end CommandExpr.Binary64
