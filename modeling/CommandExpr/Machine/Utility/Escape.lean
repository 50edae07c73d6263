import CommandExpr.Machine.Utility.Basic

/-!
# Backslash escapes

The escapes that printing utilities understand. They differ in how octal numbers are written and in
a few letters; the rest is common.
-/

namespace CommandExpr.Machine.Escape

/-- What a backslash and what follows it stand for. -/
inductive Meaning where
  /-- Bytes, and the text after the escape. -/
  | bytes (b : Bytes) (rest : Chars)
  /-- The end of all output. -/
  | stop
  /-- An escape that makes no sense, with what is said about it. -/
  | fault (message : String)
  /-- No escape. -/
  | plain
  deriving DecidableEq

/-- Which escapes are understood beside the common ones. -/
structure Style where
  /-- An octal number may start with a zero that does not count as one of its three digits. -/
  skipsZero : Bool := false
  /-- A `c` ends all output. -/
  stops : Bool := false
  /-- An `e` stands for the escape character. -/
  hasEscape : Bool := false
  /-- Two hexadecimal digits may follow an `x`. -/
  hasHex : Bool := false
  /-- Double quotes may be escaped. -/
  escapesQuotes : Bool := false
  /-- The code point of a character may follow a `u` or a `U`. -/
  hasCodePoints : Bool := false

/-- The value of a digit in a base up to sixteen. -/
def digit? (base : Nat) (c : Char) : Option Nat :=
  let n := if '0' ≤ c && c ≤ '9' then some (c.toNat - 48)
    else if 'a' ≤ c && c ≤ 'f' then some (c.toNat - 87)
    else if 'A' ≤ c && c ≤ 'F' then some (c.toNat - 55)
    else .none
  n.filter (· < base)

/-- Read at most so many digits: how many, their value, and the rest. -/
def digits (base : Nat) : Nat → Nat → Chars → Nat × Nat × Chars
  | 0, acc, s => (0, acc, s)
  | _ + 1, acc, [] => (0, acc, [])
  | n + 1, acc, c :: rest =>
    match digit? base c with
    | .none => (0, acc, c :: rest)
    | some d =>
      let (count, value, rest) := digits base n (acc * base + d) rest
      (count + 1, value, rest)

/-- The escapes of one letter that all styles share. -/
def letter? (c : Char) : Option Nat :=
  match c with
  | 'a' => some 7
  | 'b' => some 8
  | 'f' => some 12
  | 'n' => some 10
  | 'r' => some 13
  | 't' => some 9
  | 'v' => some 11
  | '\\' => some 92
  | _ => .none

/-- The byte of a number, modulo 256. -/
def byte (n : Nat) : UInt8 := UInt8.ofNat n

/-- What is said of an escape without the digits that it needs. -/
def noDigits : Meaning := .fault "missing hexadecimal number in escape"

/-- What the code point of a character stands for, after the letter that announces so many digits.
Characters outside ASCII are written as escapes again. -/
def codePoint (letter : Char) (width : Nat) (s : Chars) : Meaning :=
  let (count, n, rest) := digits 16 width 0 s
  let padded (width : Nat) : Chars :=
    let digits := (Nat.toDigits 16 n).map Char.toUpper
    List.replicate (width - digits.length) '0' ++ digits
  if count < width then noDigits
  else if [0x24, 0x40, 0x60].contains n then .bytes [byte n] rest
  else if n < 0xA0 || (0xD800 ≤ n && n ≤ 0xDFFF) then
    let digits := String.ofList ((padded width).map Char.toLower)
    .fault s!"invalid universal character name \\{letter}{digits}"
  else
    let shown := if n < 0x10000 then 'u' :: padded 4 else 'U' :: padded 8
    .bytes (Latin.toBytes ('\\' :: shown)) rest

/-- What a backslash followed by the given text stands for. -/
def meaning (style : Style) : Chars → Meaning
  | [] => .plain
  | c :: rest =>
    match letter? c with
    | some n => .bytes [byte n] rest
    | .none =>
      if c = 'c' && style.stops then .stop
      else if c = 'e' && style.hasEscape then .bytes [27] rest
      else if c = '"' && style.escapesQuotes then .bytes [34] rest
      else if c = '0' && style.skipsZero then
        let (_, n, rest) := digits 8 3 0 rest
        .bytes [byte n] rest
      else if (digit? 8 c).isSome then
        let (_, n, rest) := digits 8 3 0 (c :: rest)
        .bytes [byte n] rest
      else if c = 'x' && style.hasHex then
        match digits 16 2 0 rest with
        | (0, _, _) => noDigits
        | (_, n, rest) => .bytes [byte n] rest
      else if c = 'u' && style.hasCodePoints then codePoint c 4 rest
      else if c = 'U' && style.hasCodePoints then codePoint c 8 rest
      else .plain

/-- A text with its escapes carried out, put behind what was seen, the last byte first; and whether
an escape ended the output. The fuel bounds the characters that are read. -/
def expandFrom (style : Style) : Nat → Bytes → Chars → Bytes × Bool
  | 0, seen, _ => (seen.reverse, false)
  | _ + 1, seen, [] => (seen.reverse, false)
  | fuel + 1, seen, c :: rest =>
    if c = '\\' then
      match meaning style rest with
      | .stop => (seen.reverse, true)
      | .bytes b rest => expandFrom style fuel (b.reverse ++ seen) rest
      | .fault _ | .plain => expandFrom style fuel (92 :: seen) rest
    else expandFrom style fuel (byte c.toNat :: seen) rest

/-- A text with its escapes carried out, and whether one of them ended the output. -/
def expand (style : Style) (s : Chars) : Bytes × Bool := expandFrom style (s.length + 1) [] s

end CommandExpr.Machine.Escape
