import CommandExpr.Expression
import CommandExpr.Failure

/-!
# Argument vectors

What a program is started with: its path, then its rendered arguments. An argument of no known kind
stops the whole before anything is started, and the first one in order is named.
-/

namespace CommandExpr.Argv

/-- The rendered arguments, the first of them standing at `place`. -/
def renderFrom (path : String) (place : Nat) : List Argument → Except Failure (List Bytes)
  | [] => .ok []
  | .typed v :: rest => (renderFrom path (place + 1) rest).map (v.render :: ·)
  | .unrecognized tag :: _ => .error (.unknownKind place path tag)

/-- The argument vector of a command. -/
def ofCommand (c : Command) : Except Failure (List Bytes) :=
  (renderFrom c.path 1 c.args).map (Bytes.ofString c.path :: ·)

end CommandExpr.Argv
