import CommandExpr.Text.Utf8

/-!
# Paths

A path is the byte string by which a file is named. Two paths are the same path when their parts
are: repeated and trailing slashes and inner dots do not count.

## Main definitions

* `Path.join` — the path of a name inside a directory
* `Path.parts` — what a path consists of
* `Path.agrees` — do two paths have the same parts?
-/

namespace CommandExpr

/-- A path, by its bytes. -/
structure Path where
  /-- The bytes. -/
  bytes : Bytes
  deriving DecidableEq

namespace Path

/-- The path that a text spells. -/
def ofString (s : String) : Path := ⟨Bytes.ofString s⟩

/-- The path as text. -/
def display (p : Path) : String := Utf8.decodeLossy p.bytes

/-- The path of a name inside a directory; nothing is put in front of a name in the empty path. -/
def join (dir : Path) (name : Bytes) : Path :=
  match dir.bytes.getLast? with
  | none => ⟨name⟩
  | some last => if last = Bytes.slash then ⟨dir.bytes ++ name⟩ else ⟨dir.bytes ++ Bytes.slash :: name⟩

/-- What a path consists of. -/
structure Parts where
  /-- Does it start at the root? -/
  isAbsolute : Bool
  /-- Does it start with a dot for the current directory? -/
  hasDot : Bool
  /-- The names on the way, without dots. -/
  names : List Bytes
  deriving DecidableEq

/-- The byte of a dot. -/
def dot : UInt8 := 46

/-- The parts of a path. -/
def parts (p : Path) : Parts :=
  let segments := Bytes.splitOn Bytes.slash p.bytes
  let isAbsolute := p.bytes.head? = some Bytes.slash
  ⟨isAbsolute, !isAbsolute && segments.head? = some [dot],
    segments.filter fun s => s ≠ [] && s ≠ [dot]⟩

/-- Do two paths have the same parts? -/
def agrees (p q : Path) : Bool := p.parts = q.parts

end Path

end CommandExpr
