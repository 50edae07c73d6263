import CommandExpr.Text.Unshown
import CommandExpr.Text.Utf8

/-!
# Quoted text

A byte string between double quotes, as listings show it: the quote, the backslash and the usual
control characters by a backslash and a letter, every other character without a shape of its own by
its code point, and every byte that belongs to no character by its two hexadecimal digits.
-/

namespace CommandExpr.Quoted

/-- The lower-case hexadecimal digits of a number. -/
def hexDigits (n : Nat) : List Char := Nat.toDigits 16 n

/-- A character by its code point. -/
def codePoint (c : Char) : List Char := ['\\', 'u', '\x7b'] ++ hexDigits c.toNat ++ ['\x7d']

/-- One character inside quotes. -/
def character (c : Char) : List Char :=
  if c = '\x00' then ['\\', '0']
  else if c = '\t' then ['\\', 't']
  else if c = '\n' then ['\\', 'n']
  else if c = '\r' then ['\\', 'r']
  else if c = '"' then ['\\', '"']
  else if c = '\\' then ['\\', '\\']
  else if ' ' ≤ c && c ≤ '~' then [c]
  else if c < '\x80' || Unshown.isUnshown c then codePoint c
  else [c]

/-- One byte that belongs to no character. -/
def strayByte (b : UInt8) : List Char :=
  let digits := (hexDigits b.toNat).map Char.toUpper
  ['\\', 'x'] ++ List.replicate (2 - digits.length) '0' ++ digits

/-- One piece of a byte string inside quotes. -/
def piece : Utf8.Piece → List Char
  | .char c => character c
  | .stray bytes => bytes.flatMap strayByte

/-- The byte string in quotes. -/
def bytes (s : Bytes) : String :=
  String.ofList ('"' :: (Utf8.pieces s).flatMap piece ++ ['"'])

/-- The text in quotes. -/
def text (s : String) : String :=
  String.ofList ('"' :: s.toList.flatMap character ++ ['"'])

end CommandExpr.Quoted
