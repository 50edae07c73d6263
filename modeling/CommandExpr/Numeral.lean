import CommandExpr.Power

/-!
# Numerals

Reading whole numbers: an optional sign, then at least one ASCII digit, and nothing else. A value
out of range is refused, leading zeros are not.

## Main definitions

* `Numeral.digits?` — the value of a non-empty run of ASCII digits
* `Numeral.natural?` — a natural number below a bound, with an optional `+`
* `Numeral.int64?` — a signed 64-bit number, with an optional `+` or `-`
-/

namespace CommandExpr.Numeral

/-- The sum of numbers. -/
def total (ns : List Nat) : Nat := ns.foldl (· + ·) 0

/-- The value of an ASCII digit. -/
def digit? (c : Char) : Option Nat :=
  if '0' ≤ c && c ≤ '9' then some (c.toNat - '0'.toNat) else none

/-- The value of a run of ASCII digits, continuing from `acc`. -/
def digitsFrom? (acc : Nat) : List Char → Option Nat
  | [] => some acc
  | c :: rest => (digit? c).bind fun d => digitsFrom? (acc * 10 + d) rest

/-- The value of a non-empty run of ASCII digits. -/
def digits? : List Char → Option Nat
  | [] => none
  | s => digitsFrom? 0 s

/-- A natural number below `bound`, with an optional leading `+`. -/
def natural? (bound : Nat) (s : List Char) : Option Nat :=
  let body := match s with
    | '+' :: rest => rest
    | _ => s
  (digits? body).filter (· < bound)

/-- A whole number with an optional sign. -/
def integer? : List Char → Option Int
  | '+' :: rest => (digits? rest).map Int.ofNat
  | '-' :: rest => (digits? rest).map fun n => -Int.ofNat n
  | s => (digits? s).map Int.ofNat

/-- A whole number that fits in 64 signed bits. -/
def int64? (s : List Char) : Option Int64 :=
  (integer? s).bind fun n =>
    if -2 ^ 63 ≤ n && n < 2 ^ 63 then some (Int64.ofInt n) else none

/-- A natural number that fits in a byte. -/
def byte? (s : List Char) : Option UInt8 := (natural? (2 ^ 8) s).map UInt8.ofNat

end CommandExpr.Numeral
