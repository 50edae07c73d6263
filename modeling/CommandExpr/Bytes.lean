/-!
# Bytes

What programs exchange: finite byte strings, kept as lists so that statements about prefixes and
concatenation are statements about lists.
-/

namespace CommandExpr

/-- A finite byte string. -/
abbrev Bytes := List UInt8

namespace Bytes

/-- The UTF-8 bytes of a text. -/
def ofString (s : String) : Bytes := s.toUTF8.toList

/-- The byte that ends a string handed to the operating system. -/
def nul : UInt8 := 0

/-- The byte that ends a line. -/
def newline : UInt8 := 10

/-- The byte between the names of a path. -/
def slash : UInt8 := 47

/-- Does the string hold a byte that would end it early when it is handed to the operating system? -/
def hasNul (b : Bytes) : Bool := b.contains nul

/-- The pieces between separators; one more than there are separators. -/
def splitOn (sep : UInt8) : Bytes → List Bytes
  | [] => [[]]
  | b :: rest =>
    if b = sep then [] :: splitOn sep rest
    else match splitOn sep rest with
      | [] => [[b]]
      | piece :: pieces => (b :: piece) :: pieces

end Bytes

end CommandExpr
