import CommandExpr.Value

/-!
# Expressions

A composition of external commands: a binary tree whose leaves are commands and whose inner nodes
say how the outputs of the two sides are put together.

## Main definitions

* `Expression.leftmost` — the command that receives the input of the whole
* `Expression.leaves` — the commands from left to right
* `Expression.display` — the composition with full parentheses, each command by its path
-/

namespace CommandExpr

/-- One external program with its arguments. -/
structure Command where
  /-- The program's name or path. -/
  path : String
  /-- The arguments, in order. -/
  args : List Argument
  deriving DecidableEq

namespace Command

/-- A command without arguments. -/
def bare (path : String) : Command := ⟨path, []⟩

/-- Equality of commands, numbers compared as numbers. -/
def agrees (c d : Command) : Bool :=
  c.path = d.path && c.args.length = d.args.length
    && (c.args.zip d.args).all fun (a, b) => a.agrees b

end Command

/-- How two outputs are put together. -/
inductive Operator where
  /-- Both outputs, left then right. -/
  | concat
  /-- The right output only; the left side runs for its effects. -/
  | sequence
  /-- The left output becomes the input of the right side. -/
  | pipe
  deriving DecidableEq

namespace Operator

/-- The word that stands for an operator. -/
def symbol : Operator → String
  | concat => "+"
  | sequence => ";"
  | pipe => "|"

theorem symbol_inj {o p : Operator} (h : o.symbol = p.symbol) : o = p := by
  cases o <;> cases p <;> first | rfl | simp [symbol] at h

end Operator

/-- A composition of commands. -/
inductive Expression where
  /-- One command. -/
  | simple (command : Command)
  /-- Two compositions put together. -/
  | binary (op : Operator) (left right : Expression)
  deriving DecidableEq

namespace Expression

/-- The first command reached by following left operands. -/
def leftmost : Expression → Command
  | simple c => c
  | binary _ left _ => left.leftmost

/-- The commands, from left to right. -/
def leaves : Expression → List Command
  | simple c => [c]
  | binary _ left right => left.leaves ++ right.leaves

theorem head?_leaves (e : Expression) : e.leaves.head? = some e.leftmost := by
  induction e with
  | simple c => rfl
  | binary op left right ihl _ => simp [leaves, leftmost, List.head?_append, ihl]

/-- The composition as text: each command by its path, each operator in parentheses. -/
def display : Expression → String
  | simple c => c.path
  | binary op left right => s!"({left.display} {op.symbol} {right.display})"

/-- Equality of compositions, numbers compared as numbers. -/
def agrees : Expression → Expression → Bool
  | simple c, simple d => c.agrees d
  | binary o l r, binary p l' r' => o = p && l.agrees l' && r.agrees r'
  | _, _ => false

end Expression

end CommandExpr
