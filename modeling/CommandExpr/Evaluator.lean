import CommandExpr.Argv
import CommandExpr.Output
import CommandExpr.Runner

/-!
# Evaluation

An expression is evaluated from left to right, one program at a time. Only the leftmost command of
an expression receives the input that the expression is given; every other command receives what the
host was given, or the relay of the pipe whose right side it begins. A program that cannot be
started leaves an empty output with a fault; every other failure ends the evaluation.

## Main definitions

* `Evaluator` — configuration and flags
* `Evaluator.runCommand` — one command
* `Evaluator.dispatch` — an expression with a given input
* `Evaluator.evaluate` — an expression with the host's input, its output echoed if the flag is set
-/

namespace CommandExpr

/-- What evaluates expressions. -/
structure Evaluator where
  /-- The settings. -/
  config : Configuration
  /-- The flags, one a bit; bits without a meaning are kept. -/
  flags : UInt8
  deriving DecidableEq

namespace Evaluator

variable {σ : Type}

/-- The flag that has the final output written to the host's standard output. -/
def echoFlag : UInt8 := 1

/-- An evaluator that echoes. -/
def ofConfiguration (config : Configuration) : Evaluator := ⟨config, echoFlag⟩

/-- An evaluator that does not echo. -/
def quiet (config : Configuration) : Evaluator := ⟨config, 0⟩

/-- Is the final output to be written to the host's standard output? -/
def isEchoing (ev : Evaluator) : Bool := ev.flags &&& echoFlag = echoFlag

/-- Where the evaluator makes its relays. -/
def relays (ev : Evaluator) : RelayStore := ⟨ev.config.relayDir⟩

/-- The output of a program that ran: its status, and a fault if it did not end with zero. -/
def outcome (path : String) (output : Capture) (status : Status) : Capture :=
  let output := output.withStatus (some status)
  if status.isSuccess then output else output.pushFault (.unsuccessful path status)

/-- The output of a program that could not be started. -/
def absent (path : String) (cap : Nat) (errno : Errno) : Capture :=
  (Capture.empty cap).pushFault (.notSpawned path errno)

/-- Why a program could not be started, as far as a failure tells. -/
def spawnErrno (f : Failure) : Errno :=
  match f.kind with
  | .spawn e => e
  | _ => .unknown

/-- Run one command. -/
def runCommand (h : Host σ) (r : Runner) (c : Command) (input : InputSource) :
    Attempt σ Capture := do
  let argv ← Argv.ofCommand c
  h.note (.argv argv)
  match ← ExceptT.lift (r.run h argv input).run with
  | .ok (output, status) => return outcome c.path output status
  | .error f =>
    if f.isFatal then throw f
    else
      h.note (.skipped f)
      return absent c.path r.cap (spawnErrno f)

/-- Evaluate an expression; the input reaches its leftmost command only. -/
def dispatch (h : Host σ) (relays : RelayStore) (r : Runner) :
    Expression → InputSource → Attempt σ Capture
  | .simple c, input => runCommand h r c input
  | .binary .concat left right, input => do
    let output ← dispatch h relays r left input
    let more ← dispatch h relays r right .inherited
    return output.concat more
  | .binary .sequence left right, input => do
    let discarded ← dispatch h relays r left input
    let output ← dispatch h relays r right .inherited
    return output.prependFaults discarded.faults
  | .binary .pipe left right, input => do
    let upstream ← dispatch h relays r left input
    let relay ← Relay.create h relays
    let output ← relay.holding h do
      relay.write h upstream
      h.note (.relayFeeds relay.path.display right.leftmost.path)
      dispatch h relays r right (.relay relay)
    relay.release h
    return output.prependFaults upstream.faults

/-- The note on a failed echo. -/
def echoNote : String := "while writing the result to stdout"

/-- The runner of an evaluation that starts at the given time. -/
def runner (ev : Evaluator) (start : Instant) : Runner where
  cap := ev.config.captureCap
  deadline := ev.config.timeout.map fun ms => start + ms * nanosPerMilli

/-- Evaluate an expression with the host's input, and echo its output if the flag is set. -/
def evaluate (h : Host σ) (ev : Evaluator) (e : Expression) : Attempt σ Capture := do
  let start ← Host.ask h.now
  let output ← dispatch h ev.relays (ev.runner start) e .inherited
  h.note (.evaluated e.display ((← Host.ask h.now) - start))
  if ev.isEchoing then
    match ← ExceptT.lift (Output.writeAll h output.bytes) with
    | .ok () => pure ()
    | .error f => throw (f.withNote echoNote)
  return output

/-- The settings that an environment makes, with a warning for every variable passed over. -/
def configure (h : Host σ) (env : Environment) : Action σ Configuration := do
  for (name, raw) in Configuration.warnings env do
    h.note (.unusableVariable name raw)
  return .ofEnvironment env

/-- Evaluate an expression with the settings of an environment, and echo its output. -/
def evaluateIn (h : Host σ) (env : Environment) (e : Expression) : Attempt σ Capture := do
  let config ← ExceptT.lift (configure h env)
  (ofConfiguration config).evaluate h e

end Evaluator

end CommandExpr
