import CommandExpr.Style

/-!
# Log levels

How much is logged: messages at or below the threshold are shown. The threshold is named in any mix
of cases; any other name turns logging off.
-/

namespace CommandExpr

/-- A log level; `none` as a threshold shows nothing. -/
inductive Level where
  | none | error | warn | info | debug | trace
  deriving DecidableEq

namespace Level

/-- The place of a level in the order, the fewest messages first. -/
def number : Level → Nat
  | none => 0
  | error => 1
  | warn => 2
  | info => 3
  | debug => 4
  | trace => 5

/-- The levels of messages. -/
def messageLevels : List Level := [error, warn, info, debug, trace]

/-- The name of a level. -/
def name : Level → String
  | none => "NONE"
  | error => "ERROR"
  | warn => "WARN"
  | info => "INFO"
  | debug => "DEBUG"
  | trace => "TRACE"

/-- The colour of a level. -/
def colour : Level → Style
  | none => .reset
  | error => .red
  | warn => .yellow
  | info => .green
  | debug => .magenta
  | trace => .blue

/-- The name of a level as it is shown, in its colour. -/
def display : Level → String
  | none => ""
  | l => (StyleSet.ofList [l.colour, .bold]).apply l.name

/-- Is a message of this level shown under the given threshold? -/
def isShown (l threshold : Level) : Bool := l.number ≤ threshold.number

/-- The threshold that a text names. Lower-casing ASCII letters is enough: the other characters
whose lower case is ASCII are the Kelvin sign, whose `k` is in no name, and the dotted capital I,
whose lower case keeps a combining dot. -/
def ofText (raw : String) : Level :=
  let lower := raw.toList.map Char.toLower
  (messageLevels.find? fun l => l.name.toList.map Char.toLower = lower).getD none

/-- The variable that sets the threshold. -/
def variableName : String := "SHEXPR_LOG_LEVEL"

end Level

end CommandExpr
