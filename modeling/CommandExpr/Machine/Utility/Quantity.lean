import CommandExpr.Binary64.Fixed
import CommandExpr.Binary64.Reading
import CommandExpr.Machine.Utility.Basic

/-!
# Numbers with a point

The numbers that printing utilities compute with: a ratio, or what stands for none, read from the
front of a text and written with a given number of digits. What is read is rounded to the numbers
that the reader can tell apart.
-/

namespace CommandExpr.Machine

/-- A number, or what stands for one. -/
inductive Quantity where
  /-- A ratio, with its sign. -/
  | ratio (negative : Bool) (num den : Nat)
  /-- What lies beyond every ratio. -/
  | infinity (negative : Bool)
  /-- What is not a number. -/
  | undefined (negative : Bool)

namespace Quantity

/-- Is the sign a minus? -/
def isNegative : Quantity → Bool
  | ratio negative _ _ | infinity negative | undefined negative => negative

/-- What numbers a reader can tell apart. -/
structure Precision where
  /-- How many significant bits a number has. -/
  bits : Nat
  /-- Finite numbers are below this power of two. -/
  high : Nat
  /-- Every number is a multiple of two to the minus this. -/
  low : Nat

/-- The numbers of the utilities: sixty-four significant bits. -/
def Precision.extended : Precision := ⟨64, 16384, 16445⟩

/-- The numbers of the shell: binary64. -/
def Precision.double : Precision := ⟨53, 1024, 1074⟩

/-- The nearest number to a ratio, a tie going to the even one, and whether it is in range. -/
def round (r : Precision) (negative : Bool) (num den : Nat) : Quantity × Bool :=
  if num = 0 then (.ratio negative 0 1, true)
  else
    let up := min (r.bits + Nat.log2 den + 1 - Nat.log2 num) r.low
    let scaled := num * 2 ^ up
    let down := Nat.log2 (scaled / den) - (r.bits - 1)
    let units := roundDiv scaled (den * 2 ^ down)
    if 2 ^ (r.high + up) ≤ units * 2 ^ down then (.infinity negative, false)
    else
      let isExact := units * 2 ^ down * den = scaled
      (.ratio negative (units * 2 ^ down) (2 ^ up), isExact || r.bits ≤ Nat.log2 units + 1)

/-- The power of a base that a number is multiplied by, kept where the outcome is not settled
already. -/
def boundedPower (e : Int) : Int := max (-50000) (min 50000 e)

/-- The number `coefficient · base ^ e`. -/
def scaled (r : Precision) (negative : Bool) (coefficient base : Nat) (e : Int) : Quantity × Bool :=
  let e := boundedPower e
  if coefficient = 0 then (.ratio negative 0 1, true)
  else if 0 ≤ e then round r negative (coefficient * base ^ e.toNat) 1
  else round r negative coefficient (base ^ (-e).toNat)

/-- The exponent part at the front of a text, after one of the letters, if there is one, and what
follows it. -/
def exponentPart (letters s : Chars) : Int × Chars :=
  match s with
  | e :: rest =>
    if letters.contains e then
      let (negative, body) := Decimal.sign rest
      match Numeral.digits? (body.takeWhile Decimal.isDigit) with
      | some n => (if negative then -(n : Int) else n, body.dropWhile Decimal.isDigit)
      | none => (0, s)
    else (0, s)
  | [] => (0, s)

/-- Is it a digit to the base sixteen? -/
def isHexDigit (c : Char) : Bool :=
  c.isDigit || ('a' ≤ c && c ≤ 'f') || ('A' ≤ c && c ≤ 'F')

/-- The number that digits to the base sixteen stand for. -/
def hexDigits (s : Chars) : Nat :=
  s.foldl (fun n c => n * 16 + (if c.isDigit then c.toNat - 48 else c.toLower.toNat - 87)) 0

/-- The number after `0x` to the base sixteen, its exponent a power of two, and what follows it. -/
def ofHexFront? (r : Precision) (negative : Bool) (s : Chars) :
    Option ((Quantity × Bool) × Chars) :=
  let whole := s.takeWhile isHexDigit
  let (fraction, tail) := match s.dropWhile isHexDigit with
    | '.' :: rest => (rest.takeWhile isHexDigit, rest.dropWhile isHexDigit)
    | rest => ([], rest)
  if whole.isEmpty && fraction.isEmpty then none
  else
    let (e, rest) := exponentPart ['p', 'P'] tail
    some (scaled r negative (hexDigits (whole ++ fraction)) 2 (e - 4 * fraction.length), rest)

/-- The decimal number at the front of a text, and what follows it. -/
def ofDecimalFront? (r : Precision) (negative : Bool) (s : Chars) :
    Option ((Quantity × Bool) × Chars) :=
  let (whole, fraction, tail) := Decimal.split s
  (Numeral.digits? (whole ++ fraction)).map fun coefficient =>
    let (e, rest) := exponentPart ['e', 'E'] tail
    (scaled r negative coefficient 10 (e - fraction.length), rest)

/-- The remark in round brackets that may follow the name of no number. -/
def afterRemark (s : Chars) : Chars :=
  match s with
  | '(' :: rest =>
    match rest.dropWhile fun c => c.isAlphanum || c = '_' with
    | ')' :: rest => rest
    | _ => s
  | _ => s

/-- The number at the front of a text with whether it is in range, and what follows it. -/
def reading? (r : Precision) (s : Chars) : Option ((Quantity × Bool) × Chars) :=
  let (negative, body) := Decimal.sign (s.dropWhile fun c => c = ' ' || ('\t' ≤ c && c ≤ '\r'))
  let isNamed (name : String) : Bool :=
    (body.take name.length).map Char.toLower = name.toList
  if isNamed "infinity" then some ((.infinity negative, true), body.drop 8)
  else if isNamed "inf" then some ((.infinity negative, true), body.drop 3)
  else if isNamed "nan" then some ((.undefined negative, true), afterRemark (body.drop 3))
  else
    let hex := match body with
      | '0' :: x :: rest => if x = 'x' || x = 'X' then ofHexFront? r negative rest else none
      | _ => none
    hex.or (ofDecimalFront? r negative body)

/-- The number at the front of a text, and what follows it. -/
def ofFront? (s : Chars) : Option (Quantity × Chars) :=
  (reading? .extended s).map fun ((x, _), rest) => (x, rest)

/-- A whole number of units of 10 to the minus `places`, with a point. -/
def pointed (places : Nat) (isPointKept : Bool) (units : Nat) : Chars :=
  let whole := Nat.toDigits 10 (units / 10 ^ places)
  if places = 0 then whole ++ (if isPointKept then ['.'] else [])
  else whole ++ '.' :: Binary64.lastDigits places (units % 10 ^ places)

/-- A ratio with so many digits after the point. -/
def fixedText (places : Nat) (isPointKept : Bool) (num den : Nat) : Chars :=
  pointed places isPointKept (roundDiv (num * 10 ^ places) den)

/-- The power of ten of a ratio's first digit. -/
def order (num den : Nat) : Int :=
  let guess : Int := (Nat.toDigits 10 num).length - (Nat.toDigits 10 den).length
  let reached := if 0 ≤ guess then den * 10 ^ guess.toNat ≤ num else den ≤ num * 10 ^ (-guess).toNat
  if num = 0 then 0 else if reached then guess else guess - 1

/-- A ratio in units of its first digit's power of ten, with so many places, and that power. -/
def scientific (places : Nat) (num den : Nat) : Nat × Int :=
  let e := order num den
  let shift := (places : Int) - e
  let units :=
    if 0 ≤ shift then roundDiv (num * 10 ^ shift.toNat) den
    else roundDiv num (den * 10 ^ (-shift).toNat)
  if 10 ^ (places + 1) ≤ units then (units / 10, e + 1) else (units, e)

/-- An exponent, with its sign and at least two digits. -/
def exponentText (e : Int) : Chars :=
  let digits := Nat.toDigits 10 e.natAbs
  'e' :: (if e < 0 then '-' else '+') :: (if digits.length < 2 then '0' :: digits else digits)

/-- A ratio with an exponent and so many digits after the point. -/
def scientificText (places : Nat) (isPointKept : Bool) (num den : Nat) : Chars :=
  let (units, e) := scientific places num den
  pointed places isPointKept units ++ exponentText e

/-- A numeral without the zeros at the end of its fraction. -/
def trimmed (s : Chars) : Chars :=
  if s.contains '.' then
    let kept := (s.reverse.dropWhile (· = '0')).reverse
    if kept.getLast? = some '.' then kept.dropLast else kept
  else s

/-- A ratio with so many significant digits, in the shorter notation. -/
def shortText (digits : Nat) (isFull : Bool) (num den : Nat) : Chars :=
  let digits := max digits 1
  let (units, e) := scientific (digits - 1) num den
  if e < -4 || (digits : Int) ≤ e then
    let mantissa := pointed (digits - 1) isFull units
    (if isFull then mantissa else trimmed mantissa) ++ exponentText e
  else
    let text := fixedText ((digits : Int) - 1 - e).toNat isFull num den
    if isFull then text else trimmed text

/-- The magnitude of a number in the notation of a conversion letter. -/
def text (letter : Char) (precision : Nat) (isFull : Bool) : Quantity → Chars
  | infinity _ => "inf".toList
  | undefined _ => "nan".toList
  | ratio _ num den =>
    if letter = 'f' then fixedText precision isFull num den
    else if letter = 'e' then scientificText precision isFull num den
    else shortText precision isFull num den

end Quantity

end CommandExpr.Machine
