import CommandExpr.Capture
import CommandExpr.Numeral
import CommandExpr.Path
import CommandExpr.Text.Blank

/-!
# Configuration

What can be set for one evaluator, and how the environment sets it. Each setting has one variable;
a numeric variable that is blank counts as unset, and one that cannot be read is passed over with a
warning.

## Main definitions

* `Configuration` — the settings
* `Environment` — the values of variables
* `Configuration.ofEnvironment` — the defaults overridden by the environment
* `Configuration.warnings` — the variables passed over, with their values
-/

namespace CommandExpr

/-- What can be set for one evaluator. -/
structure Configuration where
  /-- Bytes kept from any one capture. -/
  captureCap : Nat := 16 * 1024
  /-- The directory of the relay files. -/
  relayDir : Path := ⟨[Path.dot]⟩
  /-- The time for a whole evaluation, in milliseconds. -/
  timeout : Option Nat := none
  deriving DecidableEq

/-- The values of the variables that are set. -/
abbrev Environment := List (String × String)

/-- The value of a variable. -/
def Environment.get? (env : Environment) (name : String) : Option String := env.lookup name

namespace Configuration

/-- The variable that sets the capture capacity. -/
def captureCapVariable : String := "SHEXPR_CAPTURE_CAP"

/-- The variable that sets the directory of the relay files. -/
def relayDirVariable : String := "SHEXPR_RELAY_DIR"

/-- The variable that sets the time for an evaluation. -/
def timeoutVariable : String := "SHEXPR_TIMEOUT_MS"

/-- What a numeric variable says. -/
inductive Setting where
  /-- It is unset or blank. -/
  | absent
  /-- It holds a number below 2⁶⁴. -/
  | number (n : Nat)
  /-- It holds something else. -/
  | unusable (raw : String)
  deriving DecidableEq

/-- What a numeric variable with the given value says. -/
def Setting.ofRaw : Option String → Setting
  | none => .absent
  | some raw =>
    let trimmed := Blank.trim raw.toList
    if trimmed.isEmpty then .absent
    else match Numeral.natural? (2 ^ 64) trimmed with
      | some n => .number n
      | none => .unusable raw

/-- The number that a setting holds. -/
def Setting.number? : Setting → Option Nat
  | .number n => some n
  | _ => none

/-- What a numeric variable says in an environment. -/
def setting (env : Environment) (name : String) : Setting := .ofRaw (env.get? name)

/-- The defaults, overridden by whichever variables are set and usable. -/
def ofEnvironment (env : Environment) : Configuration where
  captureCap := (setting env captureCapVariable).number?.getD ({} : Configuration).captureCap
  relayDir := match (env.get? relayDirVariable).filter (· ≠ "") with
    | some dir => .ofString dir
    | none => ({} : Configuration).relayDir
  timeout := (setting env timeoutVariable).number?

/-- The numeric variables passed over because their values cannot be read, in order. -/
def warnings (env : Environment) : List (String × String) :=
  [captureCapVariable, timeoutVariable].filterMap fun name =>
    match setting env name with
    | .unusable raw => some (name, raw)
    | _ => none

/-- The configuration with each given option in place of its setting. -/
def override (c : Configuration) (captureCap : Option Nat) (relayDir : Option Path)
    (timeout : Option Nat) : Configuration where
  captureCap := captureCap.getD c.captureCap
  relayDir := relayDir.getD c.relayDir
  timeout := timeout <|> c.timeout

/-- Are all settings the same, the directories compared by their parts? -/
def agrees (c d : Configuration) : Bool :=
  c.captureCap = d.captureCap && c.relayDir.agrees d.relayDir && c.timeout = d.timeout

end Configuration

end CommandExpr
