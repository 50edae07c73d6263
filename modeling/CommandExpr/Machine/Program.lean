import CommandExpr.Machine.FileTree

/-!
# Programs

A program is what it does next: it ends, asks the machine for something and goes on with the reply,
or splits in two. Programs are written as tasks, computations that are given what to do with their
result.

## Main definitions

* `Request`, `Reply` — what is asked of the machine, and what it says
* `Program` — what a process does from here on
* `Task` — a computation that is a part of a program
-/

namespace CommandExpr.Machine

/-- How a process ended. -/
inductive Ending where
  /-- It returned a code. -/
  | code (n : Nat)
  /-- A signal, by number, ended it. -/
  | signal (n : Nat)
  deriving DecidableEq

/-- What a signal does to a process. -/
inductive Disposition where
  | default | ignored | caught
  deriving DecidableEq

/-- How a file is opened. -/
structure OpenMode where
  /-- May it be read? -/
  isReadable : Bool := false
  /-- May it be written? -/
  isWritable : Bool := false
  /-- Is every write put at the end? -/
  isAppending : Bool := false
  /-- Is it made if it is missing? -/
  creates : Bool := false
  /-- Is it emptied? -/
  truncates : Bool := false

/-- What is known about a file. -/
structure FileInfo where
  /-- What it is; the entries of a directory and the bytes of a file included. -/
  node : Node
  /-- Which it is. -/
  id : NodeId
  /-- How many names it has; a directory has one for itself and one for each directory in it, too. -/
  links : Nat

/-- What a process asks of the machine. -/
inductive Request where
  | read (fd count : Nat)
  | write (fd : Nat) (bytes : Bytes)
  | open (path : Bytes) (mode : OpenMode)
  | close (fd : Nat)
  /-- Let a descriptor name what another one names. -/
  | redirect (source target : Nat)
  /-- A further descriptor, from ten on, that programs started later do not inherit. -/
  | save (fd : Nat)
  /-- Is the descriptor open? -/
  | isOpen (fd : Nat)
  /-- Move the offset of a file back. -/
  | moveBack (fd count : Nat)
  /-- What is known about the file of a descriptor. -/
  | infoOf (fd : Nat)
  | pipe
  /-- Turn into the program of a path. -/
  | exec (path : Bytes) (argv env : List Bytes)
  /-- Wait for a child, or for any. -/
  | wait (pid : Option Nat) (look : Bool)
  | kill (pid signal : Nat)
  /-- Lead a new group of processes. -/
  | leadGroup
  /-- Send a signal to the other processes of the own group. -/
  | killGroup (signal : Nat)
  | sleep (nanoseconds : Nat)
  | self
  | parent
  | info (path : Bytes) (follow : Bool)
  | makeDirectory (path : Bytes) (mode : Nat)
  | removeDirectory (path : Bytes)
  | unlink (path : Bytes)
  | rename (old new : Bytes)
  | makeName (old new : Bytes)
  | makeLink (target path : Bytes)
  | changeMode (path : Bytes) (mode : Nat)
  | changeDirectory (path : Bytes)
  | currentDirectory
  /-- Let new files lack other permission bits than before, which are replied. -/
  | setMask (mask : Nat)
  | setSignal (signal : Nat) (d : Disposition)
  | signalState (signal : Nat)
  /-- The caught signals that have come in since the last request of this kind. -/
  | takeSignals
  /-- Let time pass. -/
  | tick

/-- What the machine says. -/
inductive Reply where
  | done
  | error (e : Errno)
  | bytes (b : Bytes)
  | number (n : Nat)
  | pair (a b : Nat)
  | ended (pid : Nat) (ending : Ending)
  | info (i : FileInfo)
  | signals (s : List Nat)
  | disposition (d : Disposition)

/-- What a process does from here on. -/
inductive Program where
  /-- It ends with a code. -/
  | exit (code : Nat)
  /-- It asks for something and goes on with the reply. -/
  | call (request : Request) (next : Reply → Program)
  /-- It splits: a new process runs the first program, and this one goes on with its number. -/
  | fork (child : Program) (next : Nat → Program)

/-- A part of a program: given what follows its result, a program. -/
def Task (α : Type) := (α → Program) → Program

instance : Monad Task where
  pure a := fun next => next a
  bind t f := fun next => t fun a => f a next

namespace Task

/-- End the process. -/
def exit {α : Type} (code : Nat) : Task α := fun _ => Program.exit code

/-- Ask the machine. -/
def ask (r : Request) : Task Reply := fun next => Program.call r next

/-- Run a program as a new process; its number. -/
def fork (child : Program) : Task Nat := fun next => Program.fork child next

/-- The program of a task whose result is its exit code. -/
def toProgram (t : Task Nat) : Program := t Program.exit

/-- The reply to a request that has no other result, as an error or nothing. -/
def attempt (r : Request) : Task (Except Errno Unit) := do
  match ← ask r with
  | .error e => return .error e
  | _ => return .ok ()

/-- Read at most so many bytes; none at the end. -/
def read (fd count : Nat) : Task (Except Errno Bytes) := do
  match ← ask (.read fd count) with
  | .bytes b => return .ok b
  | .error e => return .error e
  | _ => return .ok []

/-- Open a file; its descriptor. -/
def «open» (path : Bytes) (mode : OpenMode) : Task (Except Errno Nat) := do
  match ← ask (.open path mode) with
  | .number fd => return .ok fd
  | .error e => return .error e
  | _ => return .error .badDescriptor

/-- What is known about the file of a path. -/
def info (path : Bytes) (follow : Bool) : Task (Except Errno FileInfo) := do
  match ← ask (.info path follow) with
  | .info i => return .ok i
  | .error e => return .error e
  | _ => return .error .notFound

/-- How many rounds a loop of a task takes at most. -/
def rounds : Nat := 1000000

/-- How many bytes are asked for at a time. -/
def chunk : Nat := 65536

/-- Write all the bytes, within so many rounds. -/
def writeRounds (fd : Nat) : Nat → Bytes → Task (Except Errno Unit)
  | _, [] => return .ok ()
  | 0, _ => return .error .interrupted
  | fuel + 1, bytes => do
    match ← ask (.write fd bytes) with
    | .number n => writeRounds fd fuel (bytes.drop n)
    | .error e =>
      if e = .interrupted then writeRounds fd fuel bytes else return .error e
    | _ => return .error .badDescriptor

/-- Write all the bytes. -/
def write (fd : Nat) (bytes : Bytes) : Task (Except Errno Unit) := writeRounds fd rounds bytes

/-- Write a text to the standard error output. -/
def warn (message : String) : Task Unit := do
  let _ ← write 2 (Bytes.ofString message)

/-- Write a line of bytes to the standard error output. -/
def warnLine (parts : List Bytes) : Task Unit := do
  let _ ← write 2 (parts.flatten ++ [Bytes.newline])

/-- Read to the end, the last chunk first, within so many rounds. -/
def readRounds (fd : Nat) : Nat → List Bytes → Task (Except Errno (List Bytes))
  | 0, seen => return .ok seen
  | fuel + 1, seen => do
    match ← read fd chunk with
    | .ok [] => return .ok seen
    | .ok more => readRounds fd fuel (more :: seen)
    | .error e => if e = .interrupted then readRounds fd fuel seen else return .error e

/-- Read to the end. -/
def readAll (fd : Nat) : Task (Except Errno Bytes) := do
  return (← readRounds fd rounds []).map fun chunks => chunks.reverse.flatten

end Task

end CommandExpr.Machine
