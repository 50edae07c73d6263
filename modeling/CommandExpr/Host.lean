import CommandExpr.Configuration
import CommandExpr.Notice

/-!
# The host

All that the library asks of the machine it runs on, as one record of functions on the machine's
state. Every call may change the state, and nothing is assumed of the answers; a loop that waits for
a certain answer gives up after as many others as the host announced.

## Main definitions

* `Host` — the calls
* `Host.spawn` — the calls that make a process with its pipes
* `Session` — the machine's state and the number of the next relay
* `Action`, `Attempt` — computations on a session, without and with failure
-/

namespace CommandExpr

/-- The number of an open file. -/
abbrev Handle := Nat

/-- Nanoseconds on the host's clock. -/
abbrev Instant := Nat

/-- What the library asks of a machine whose state is a `σ`. -/
structure Host (σ : Type) where
  /-- How many answers a single loop waits for before it gives up. -/
  patience : σ → Nat
  /-- Make a new file for reading and writing; fails if the name is taken in any way. -/
  createNew : Path → σ → Except Errno Handle × σ
  /-- Open a file for reading from its start. -/
  openRead : Path → σ → Except Errno Handle × σ
  /-- Write all the bytes at the place the handle has reached. -/
  append : Handle → Bytes → σ → Except Errno Unit × σ
  /-- Close a handle. -/
  close : Handle → σ → σ
  /-- Remove the name of a file. -/
  remove : Path → σ → Except Errno Unit × σ
  /-- Make a pipe for the process that is made next: the first one is for its output, the second one
  for the report on whether it could be started. A call that fails lets go of those made before. -/
  makePipe : σ → Except Errno Unit × σ
  /-- Make a process that turns into the program of an argument vector, with the given open file or
  else the host's own standard input as its input, and with the pipes that were made for it. A call
  that fails lets go of them. -/
  fork : List Bytes → Option Handle → σ → Except Errno Pid × σ
  /-- Read at most so many bytes of the report; no bytes if it has ended. -/
  readReport : Pid → Nat → σ → Except Errno Bytes × σ
  /-- Read at most so many bytes of the output; no bytes if it has ended. -/
  readOutput : Pid → Nat → σ → Except Errno Bytes × σ
  /-- Wait at most so many milliseconds until reading the output would not have to wait. -/
  pollOutput : Pid → Nat → σ → Except Errno Bool × σ
  /-- Close the reading ends of a child's pipes. -/
  hangUp : Pid → σ → σ
  /-- Wait for a child to change state, or only look if the flag is set. -/
  wait : Pid → Bool → σ → Except Errno WaitReport × σ
  /-- Send a signal. -/
  kill : Pid → Signal → σ → Except Errno Unit × σ
  /-- Read the clock. -/
  now : σ → Instant × σ
  /-- Do nothing for so many nanoseconds. -/
  sleep : Nat → σ → σ
  /-- Write to the host's standard output; how many bytes were accepted. -/
  writeOut : Bytes → σ → Except Errno Nat × σ
  /-- Write to the host's standard error output. -/
  tell : Message → σ → σ

/-- The state of one run of the library. -/
structure Session (σ : Type) where
  /-- The number of the next relay; it is shared by all evaluations of the session. -/
  nextRelay : UInt64
  /-- The machine. -/
  machine : σ

/-- A computation on a session. -/
abbrev Action (σ : Type) := StateM (Session σ)

/-- A computation on a session that may fail. -/
abbrev Attempt (σ : Type) := ExceptT Failure (StateM (Session σ))

namespace Host

variable {σ : Type}

/-- Make the two pipes of a process and then the process. After a pipe that cannot be made nothing
more is asked for. -/
def spawn (h : Host σ) (argv : List Bytes) (input : Option Handle) (m : σ) : Except Errno Pid × σ :=
  match h.makePipe m with
  | (.error e, m) => (.error e, m)
  | (.ok (), m) =>
    match h.makePipe m with
    | (.error e, m) => (.error e, m)
    | (.ok (), m) => h.fork argv input m

/-- A call of the host. -/
def call {α : Type} (f : σ → α × σ) : Action σ α := fun s =>
  let (a, machine) := f s.machine
  (a, { s with machine })

/-- A change of the host. -/
def change (f : σ → σ) : Action σ Unit := fun s => ((), { s with machine := f s.machine })

/-- Write a message. -/
def say (h : Host σ) (m : Message) : Action σ Unit := change (h.tell m)

/-- Log an event. -/
def note (h : Host σ) (n : Notice) : Action σ Unit := h.say (.notice n)

/-- How many answers a loop that starts now waits for. -/
def budget (h : Host σ) : Action σ Nat := fun s => (h.patience s.machine, s)

/-- A call of the host within an attempt. -/
def ask {α : Type} (f : σ → α × σ) : Attempt σ α := ExceptT.lift (call f)

/-- A result that was computed, as an attempt. -/
def settle {α : Type} (x : Action σ (Except Failure α)) : Attempt σ α := ExceptT.mk x

end Host

/-- How many nanoseconds are in a millisecond. -/
def nanosPerMilli : Nat := 1000000

end CommandExpr
