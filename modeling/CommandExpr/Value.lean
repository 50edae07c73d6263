import CommandExpr.Binary64.Fixed
import CommandExpr.Bytes

/-!
# Values and arguments

A command's arguments are typed values. They reach it as untyped pairs of a kind tag and a payload;
a pair that fits no kind is kept as an *unrecognized* argument until the command is run.

## Main definitions

* `Value.render` — the bytes a value becomes as an argument of a program
* `Argument.ofRaw` — the argument that a tag and a payload stand for
-/

namespace CommandExpr

/-- The kinds of value. -/
inductive Kind where
  | int | float | bool | char | str
  deriving DecidableEq

namespace Kind

/-- The number by which a kind is known outside. -/
def tag : Kind → UInt8
  | int => 0
  | float => 1
  | bool => 2
  | char => 3
  | str => 4

/-- The kind with the given number. -/
def ofTag? (tag : UInt8) : Option Kind :=
  if tag = 0 then some int
  else if tag = 1 then some float
  else if tag = 2 then some bool
  else if tag = 3 then some char
  else if tag = 4 then some str
  else none

theorem ofTag?_tag (k : Kind) : ofTag? k.tag = some k := by cases k <;> rfl

end Kind

/-- A typed value carried as a command argument. -/
inductive Value where
  | int (n : Int64)
  | float (x : Binary64)
  | bool (b : Bool)
  | char (byte : UInt8)
  | str (s : String)
  deriving DecidableEq

namespace Value

/-- The kind of a value. -/
def kind : Value → Kind
  | int _ => .int
  | float _ => .float
  | bool _ => .bool
  | char _ => .char
  | str _ => .str

/-- The bytes of the value as one argument of a program. -/
def render : Value → Bytes
  | int n => Bytes.ofString (toString n.toInt)
  | float x => Bytes.ofString x.fixed
  | bool true => Bytes.ofString "true"
  | bool false => Bytes.ofString "false"
  | char byte => [byte]
  | str s => Bytes.ofString s

/-- Equality of values, numbers compared as numbers. -/
def agrees : Value → Value → Bool
  | float x, float y => x.agrees y
  | v, w => v = w

end Value

/-- What is handed over beside a kind tag. -/
inductive Payload where
  | int (n : Int64)
  | float (x : Binary64)
  | byte (b : UInt8)
  | text (s : String)
  deriving DecidableEq

/-- One argument of a command. -/
inductive Argument where
  /-- A value of a known kind. -/
  | typed (v : Value)
  /-- A tag that names no kind, or whose kind the payload did not fit. -/
  | unrecognized (tag : UInt8)
  deriving DecidableEq

namespace Argument

/-- A plain text argument. -/
def text (s : String) : Argument := .typed (.str s)

/-- The value of the given kind that a payload holds; of a truth value only the low bit counts. -/
def valueOf? : Kind → Payload → Option Value
  | .int, .int n => some (.int n)
  | .float, .float x => some (.float x)
  | .bool, .int n => some (.bool (n.toInt % 2 = 1))
  | .char, .byte b => some (.char b)
  | .str, .text s => some (.str s)
  | _, _ => none

/-- The argument that a tag and a payload stand for. -/
def ofRaw (tag : UInt8) (payload : Payload) : Argument :=
  match (Kind.ofTag? tag).bind (valueOf? · payload) with
  | some v => typed v
  | none => unrecognized tag

/-- Equality of arguments, numbers compared as numbers. -/
def agrees : Argument → Argument → Bool
  | typed v, typed w => v.agrees w
  | a, b => a = b

end Argument

end CommandExpr
