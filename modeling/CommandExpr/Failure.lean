import CommandExpr.IoError
import CommandExpr.Style

/-!
# Failures

Why an evaluation, or a part of it, failed: a kind, and notes that say what was going on. A program
that cannot be started is the one failure that does not end the evaluation.

## Main definitions

* `Failure` — a kind and its notes
* `Failure.isFatal` — does it end the evaluation?
* `Failure.message`, `Failure.diagnostic` — the one-line text, and the lines shown to the user
* `Failure.Says` — of which kind a failure is, and what it says

Each cause has its own constructor below, and its wording is there and nowhere else.
-/

namespace CommandExpr

/-- What kind of failure it is. -/
inductive FailureKind where
  /-- A file or a descriptor failed. -/
  | io (kind : IoKind)
  /-- A call to the operating system failed. -/
  | os (errno : Errno)
  /-- An argument is of no known kind. -/
  | argument
  /-- A program could not be started at all. -/
  | spawn (errno : Errno)
  /-- A relay file failed. -/
  | relay
  /-- The time is up. -/
  | timeout
  /-- The words make no expression. -/
  | words
  /-- The evaluator was misused. -/
  | internal
  /-- The host kept interrupting a call beyond the number of answers it had announced. -/
  | stalled
  deriving DecidableEq

/-- The words for a kind. -/
def FailureKind.text : FailureKind → String
  | .io kind => s!"I/O Error: {kind.text}"
  | .os errno => s!"Errno: {errno.desc}"
  | .argument => "Unrecognized argument kind"
  | .spawn errno => s!"Failed to spawn: {errno.desc}"
  | .relay => "Relay I/O Error"
  | .timeout => "Deadline exceeded"
  | .words => "Syntax Error"
  | .internal => "Internal Error"
  | .stalled => "Host stopped answering"

/-- A failure with what is known about it. -/
structure Failure where
  /-- What kind of failure it is. -/
  kind : FailureKind
  /-- What was going on, the nearest first. -/
  notes : List String
  deriving DecidableEq

namespace Failure

/-- The failure with one more note after the others. -/
def withNote (f : Failure) (note : String) : Failure := { f with notes := f.notes ++ [note] }

/-- Does the failure end the evaluation? -/
def isFatal (f : Failure) : Bool :=
  match f.kind with
  | .spawn _ => false
  | _ => true

/-- The kind, and the first note if there is one. -/
def message (f : Failure) : String :=
  match f.notes with
  | [] => f.kind.text
  | note :: _ => s!"{f.kind.text} - {note}"

/-- The lines shown to the user: the kind, then each note. -/
def diagnostic (f : Failure) : List String :=
  let label := (StyleSet.ofList [.red, .bold]).apply "error"
  let noteLabel := (StyleSet.ofList [.green]).apply "note"
  s!"{label}: {f.kind.text}" :: f.notes.map fun note => s!"  {noteLabel}: {note}"

/-- The failure is of a kind, and a single note says what was going on. -/
def Says (f : Failure) (kind : FailureKind) (note : String) : Prop :=
  f.kind = kind ∧ f.notes = [note]

/-- Kind and note leave nothing open. -/
theorem Says.eq {f : Failure} {kind : FailureKind} {note : String} (hf : f.Says kind note) :
    f = ⟨kind, [note]⟩ := by
  obtain ⟨rfl, hnotes⟩ := hf
  rw [← hnotes]

/-! ## Causes -/

/-- A call to the operating system failed. -/
def ofErrno (e : Errno) : Failure := ⟨.os e, [e.desc]⟩

/-- A file or a descriptor failed. -/
def ofIoError (e : IoError) : Failure := ⟨.io e.kind, [e.text]⟩

/-- The argument at a place, counted from one, is of no known kind. -/
def unknownKind (place : Nat) (path : String) (tag : UInt8) : Failure :=
  ⟨.argument, [s!"argument {place} of '{path}' has kind tag {tag}"]⟩

/-- An operator word has nothing on one side. -/
def missingCommand : Failure := ⟨.words, ["expected a command next to an operator"]⟩

/-- A word announces a kind that the rest of it does not spell. -/
def invalidWord (word what : String) : Failure :=
  ⟨.words, [s!"'{word}' is not a valid {what}"]⟩

/-- There is no program to run. -/
def emptyArgv : Failure := ⟨.internal, ["empty argv"]⟩

/-- An argument holds a byte that no argument can hold. -/
def nulInArgument (program : String) : Failure :=
  ⟨.spawn .invalidArgument, [s!"'{program}': argument contains a NUL byte"]⟩

/-- The program could not be started. -/
def notStarted (program : String) (e : Errno) : Failure := ⟨.spawn e, [s!"'{program}'"]⟩

/-- The report on whether the program was started is neither empty nor whole. -/
def brokenStartReport : Failure := ⟨.internal, ["short read on exec status pipe"]⟩

/-- The time was up before the program had ended its output. -/
def stillWriting (program : String) : Failure :=
  ⟨.timeout, [s!"'{program}' did not finish writing"]⟩

/-- The time was up before the program had ended. -/
def stillRunning (program : String) : Failure :=
  ⟨.timeout, [s!"'{program}' was still running"]⟩

/-- A relay file could not be created, and which attempt it was. -/
def relayNotCreated (path : String) (e : IoError) (attempts : Nat) : Failure :=
  ⟨.relay, [s!"failed to create '{path}'", e.text, s!"after {attempts} attempts"]⟩

/-- A relay file could not be written. -/
def relayNotWritten (path : String) (e : IoError) : Failure :=
  ⟨.relay, [s!"failed to write '{path}'", e.text]⟩

/-- A relay file could not be opened for reading. -/
def relayNotOpened (path : String) (e : IoError) : Failure :=
  ⟨.relay, [s!"failed to open '{path}'", e.text]⟩

/-- A relay file could not be removed. -/
def relayNotRemoved (path : String) (e : IoError) : Failure :=
  ⟨.relay, [s!"failed to remove '{path}'", e.text]⟩

/-- A write was accepted without a single byte. -/
def writeZero : Failure := ⟨.io .writeZero, ["write returned zero bytes"]⟩

/-- The host kept interrupting a call. -/
def stalled : Failure := ⟨.stalled, []⟩

end Failure

end CommandExpr
