import CommandExpr.Evaluator
import CommandExpr.Words

/-!
# The command line

Options come first; the first word that is none of them begins the expression, and from there on
every word belongs to it.

## Main definitions

* `CommandLine.Request` — what a command line asks for
* `CommandLine.parse` — the request of a command line
* `CommandLine.perform` — carry a request out; the exit code
* `CommandLine.evaluateOrExit` — evaluate one expression as a program of its own
-/

namespace CommandExpr.CommandLine

/-- What a command line asks for. -/
inductive Request where
  /-- The command line makes no sense. -/
  | misused
  /-- Print the help text. -/
  | help
  /-- Print the version. -/
  | version
  /-- Evaluate the words. -/
  | evaluate (o : Options)
  deriving DecidableEq

/-- The options that take a value. -/
inductive Valued where
  | captureCap | relayDir | timeout
  deriving DecidableEq

/-- The options that take none. -/
inductive Flag where
  | typed | report | help | version
  deriving DecidableEq

/-- What a word is, as long as the expression has not begun. -/
inductive Word where
  /-- An option whose value is the next word. -/
  | valued (option : Valued)
  /-- An option with its value after an equals sign. -/
  | assigned (option : Valued) (value : Bytes)
  /-- An option without a value. -/
  | flag (f : Flag)
  /-- An option without a value that was given one. -/
  | assignedFlag (f : Flag)
  /-- The end of the options. -/
  | endOfOptions
  /-- A long option whose name is no text. -/
  | unreadable
  /-- None of them: the first word of the expression. -/
  | other
  deriving DecidableEq

/-- The long names of the options with a value. -/
def valuedNames : List (String × Valued) :=
  [("--capture-cap", .captureCap), ("--relay-dir", .relayDir), ("--timeout-ms", .timeout)]

/-- The long names of the options without one. -/
def flagNames : List (String × Flag) :=
  [("--typed", .typed), ("--report", .report), ("--help", .help), ("--version", .version)]

/-- The short names, each a byte after a hyphen. -/
def shortNames : List (UInt8 × Flag) := [(104, .help), (86, .version)]

/-- The byte in front of options. -/
def hyphen : UInt8 := 45

/-- The first of the short options in a word that is made of nothing else. -/
def shortFlag? (word : Bytes) : Option Flag :=
  match word with
  | mark :: first :: rest =>
    if mark = hyphen && (first :: rest).all fun b => (shortNames.lookup b).isSome then
      shortNames.lookup first
    else none
  | _ => none

/-- Does a word start as a long option does? -/
def isLong (word : Bytes) : Bool := [hyphen, hyphen].isPrefixOf word

/-- The byte of the equals sign. -/
def equalsSign : UInt8 := 61

/-- What a word is, as long as the expression has not begun. -/
def classify (word : Bytes) : Word :=
  let name := Utf8.decode? (word.takeWhile (· ≠ equalsSign))
  let named {α : Type} (names : List (String × α)) : Option α := name.bind fun n => names.lookup n
  if word = [hyphen, hyphen] then .endOfOptions
  else if isLong word && name.isNone then .unreadable
  else match word.dropWhile (· ≠ equalsSign) with
    | [] =>
      match named valuedNames, (named flagNames).or (shortFlag? word) with
      | some option, _ => .valued option
      | none, some f => .flag f
      | none, none => .other
    | _ :: value =>
      match named valuedNames, named flagNames with
      | some option, _ => .assigned option value
      | none, some f => .assignedFlag f
      | none, none => .other

/-- Set an option to a value; none if it has one already, or if the value is empty or unusable. -/
def setOption? (o : Options) (option : Valued) (value : Bytes) : Option Options :=
  let number? := (Utf8.decode? value).bind fun s => Numeral.natural? (2 ^ 64) s.toList
  match option with
  | .captureCap => do
    guard o.captureCap.isNone
    return { o with captureCap := some (← number?) }
  | .timeout => do
    guard o.timeout.isNone
    return { o with timeout := some (← number?) }
  | .relayDir => do
    guard (o.relayDir.isNone && !value.isEmpty)
    return { o with relayDir := some ⟨value⟩ }

/-- The request of the words of an expression after the given options. -/
def withWords (o : Options) (words : List Bytes) : Request :=
  match words.mapM Utf8.decode? with
  | none | some [] => .misused
  | some words => .evaluate { o with words }

/-- The request of a command line after the options read so far. -/
def parseFrom (o : Options) : List Bytes → Request
  | [] => .misused
  | word :: rest =>
    match classify word with
    | .other => withWords o (word :: rest)
    | .endOfOptions => withWords o rest
    | .assignedFlag _ | .unreadable => .misused
    | .flag .help => .help
    | .flag .version => .version
    | .flag .typed => if o.isTyped then .misused else parseFrom { o with isTyped := true } rest
    | .flag .report =>
      if o.isReporting then .misused else parseFrom { o with isReporting := true } rest
    | .assigned option value =>
      match setOption? o option value with
      | some o => parseFrom o rest
      | none => .misused
    | .valued option =>
      match rest with
      | [] => .misused
      | value :: rest =>
        match classify value with
        | .other =>
          match setOption? o option value with
          | some o => parseFrom o rest
          | none => .misused
        | _ => .misused

/-- The request of a command line. -/
def parse (args : List Bytes) : Request := parseFrom {} args

/-- The help text. -/
def helpText : String := "Evaluate a composition of external commands and print its captured output

Usage: shexpr [OPTIONS] <WORDS>...

Arguments:
  <WORDS>...  Commands separated by the operator words '|', '+' and ';'

Options:
      --capture-cap <CAPTURE_CAP>  Bytes kept from each capture
      --relay-dir <RELAY_DIR>      Directory for relay files
      --timeout-ms <TIMEOUT_MS>    Abort the evaluation after this many milliseconds
      --typed                      Read kind prefixes (i: f: b: c: s: tN:) on argument words
      --report                     Print the final status and any faults to stderr
  -h, --help                       Print help
  -V, --version                    Print version

# Examples:

shexpr -- printf 'a\\nb\\nc\\n' '|' grep b '|' wc -l
shexpr -- echo one + echo two
shexpr --typed -- echo i:42 f:1.5 b:3 c:x
"

/-- The version text. -/
def versionText : String := "shexpr 0.1.0\n"

/-- The line for a command line that makes no sense. -/
def usageText : String := "Usage: shexpr [OPTIONS] <WORDS>..."

/-- The exit code of a command line that makes no sense. -/
def misuseCode : UInt32 := 2

/-- The exit code of a failure. -/
def failureCode : UInt32 := 1

variable {σ : Type}

/-- Show a failure to the user. -/
def showFailure (h : Host σ) (f : Failure) : Action σ Unit := do
  for line in f.diagnostic do
    h.say (.line line)

/-- The lines that report on an output: the status, whether it was cut, and the faults. -/
def reportLines (output : Capture) : List String :=
  let status := match output.status with
    | some status => s!"status: {status.display}"
    | none => "status: not spawned"
  let truncation :=
    if output.isTruncated then [s!"output truncated to {output.cap} bytes"] else []
  status :: truncation ++ output.faults.map fun fault => s!"fault: {fault.display}"

/-- Evaluate the words of a command line; the exit code. The output itself was echoed by the
evaluation. -/
def evaluateWords (h : Host σ) (env : Environment) (o : Options) : Action σ UInt32 := do
  h.note (.options o)
  match Words.parse o.isTyped o.words with
  | .error f =>
    showFailure h f
    return failureCode
  | .ok e =>
    let settings ← Evaluator.configure h env
    let config := settings.override o.captureCap o.relayDir o.timeout
    match ← ((Evaluator.ofConfiguration config).evaluate h e).run with
    | .error f =>
      showFailure h f
      return failureCode
    | .ok output =>
      if o.isReporting then
        for line in reportLines output do
          h.say (.line line)
      return 0

/-- Print a text; a failure to do so is passed over. -/
def print (h : Host σ) (text : String) : Action σ Unit := do
  let _ ← Output.writeAll h (Bytes.ofString text)

/-- Carry a request out; the exit code. -/
def perform (h : Host σ) (env : Environment) : Request → Action σ UInt32
  | .misused => do
    h.say (.line usageText)
    return misuseCode
  | .help => do
    print h helpText
    return 0
  | .version => do
    print h versionText
    return 0
  | .evaluate o => evaluateWords h env o

/-- Evaluate an expression as a program of its own; the exit code. -/
def evaluateOrExit (h : Host σ) (env : Environment) (e : Expression) : Action σ UInt32 := do
  match ← (Evaluator.evaluateIn h env e).run with
  | .ok _ => return 0
  | .error f =>
    showFailure h f
    return failureCode

end CommandExpr.CommandLine
