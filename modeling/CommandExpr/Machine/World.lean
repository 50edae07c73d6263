import CommandExpr.Host
import CommandExpr.Machine.Images

/-!
# A machine as a host

A kernel with the host on it: what the host was given as its standard input, what its standard
output got, and the pipes to the programs that it started. The kernel moves on only while the host
waits for it, so a program that nobody waits for does nothing, and what happens is the same in every
run.

A descriptor that the host keeps is the number of an open file of the kernel; closing it changes
nothing that anybody can see.

## Main definitions

* `World` — the state
* `World.fresh` — a machine that was just set up
* `World.host` — the calls of the library on it
-/

namespace CommandExpr.Machine

/-- The pipes from a process that the host started. -/
structure Link where
  /-- The process. -/
  pid : Pid
  /-- The pipe that carries the report on whether it could be started. -/
  report : Nat
  /-- The pipe that carries its output. -/
  output : Nat

/-- A machine and the host on it. -/
structure World where
  /-- The machine. -/
  kernel : Kernel
  /-- The current directory of the host. -/
  cwd : NodeId
  /-- The open file that is the host's standard input. -/
  stdin : Nat
  /-- The open file that is the standard error output. -/
  console : Nat
  /-- The environment of the programs that the host starts. -/
  env : EnvStrings
  /-- The pipes from the processes that the host started. -/
  links : List Link := []
  /-- The pipes that no process was made for yet, the last one first: each with the open file of its
  writing end. -/
  pipes : List (Nat × Nat) := []
  /-- What the host's standard output got, the last piece first. -/
  written : List Bytes := []
  /-- Does the host's standard output accept nothing? -/
  isFull : Bool := false

namespace World

/-! ## Setting up -/

/-- The first process number that the host's children get. -/
def firstPid : Nat := 100

/-- The current directory of a host that was just set up. -/
def workingDirectory : Bytes := Bytes.ofString "/tmp/work"

/-- A machine that was just set up, for a host with the given environment and standard input. -/
def fresh (env : EnvStrings) (stdin : Bytes) : World :=
  let tree := Images.tree.makeDirectories FileTree.root workingDirectory
  let cwd := (tree.find FileTree.root workingDirectory true).toOption.getD FileTree.root
  let input := tree.nodes.size
  let tree : FileTree := ⟨tree.nodes.push (.file stdin.toByteArray 0o644)⟩
  let files : Array OpenFile :=
    #[{ target := .node input, mode := { isReadable := true } },
      { target := .console, mode := { isWritable := true } }]
  let kernel : Kernel :=
    { tree, files, pipes := #[], processes := [], clock := 0, nextPid := firstPid
      transcript := [], images := Images.program }
  { kernel, cwd, stdin := 0, console := 1, env }

/-- The world with its file tree changed. -/
def mapTree (w : World) (f : FileTree → FileTree) : World :=
  { w with kernel := { w.kernel with tree := f w.kernel.tree } }

/-- All names below the current directory with their nodes. -/
def listing (w : World) : List (Bytes × Node) :=
  w.kernel.tree.listing w.kernel.tree.nodes.size w.cwd

/-- What the host's standard output got. -/
def output (w : World) : Bytes := w.written.reverse.flatten

/-! ## Processes -/

/-- Let the kernel move on until a condition holds, or up to a point of time. -/
def awaiting (w : World) (condition : Kernel → Bool) (limit : Option Nat) : World :=
  { w with kernel := w.kernel.advance condition limit Kernel.longestAdvance }

/-- Make a process of the host. -/
def make (w : World) (program : Program) (fds : List (Nat × Nat)) (guarded : List Nat)
    (dispositions : List (Nat × Disposition)) : World × Pid :=
  let pid := w.kernel.nextPid
  let p : Process :=
    { pid, parent := Kernel.hostPid, program, fds, guarded, cwd := w.cwd, dispositions }
  let kernel := { w.kernel with processes := w.kernel.processes ++ [p], nextPid := pid + 1 }
  ({ w with kernel }, pid)

/-- The child of the host with the given number, ended or not. -/
def child? (k : Kernel) (pid : Pid) : Option Process :=
  k.processes.find? fun p => p.pid = pid && p.parent = Kernel.hostPid

/-- Has a child ended, or is it no child? -/
def hasEnded (pid : Pid) (k : Kernel) : Bool := (child? k pid).all (·.ending.isSome)

/-- Wait until a child has ended, without collecting it. -/
def settle (w : World) (pid : Pid) : World := w.awaiting (hasEnded pid) none

/-- What a wait reports about an end; a signal that has no name is no report. -/
def reportOf : Ending → Except Errno WaitReport
  | .code n => .ok (.exited n)
  | .signal n =>
    match Signal.ofNumber? n with
    | some s => .ok (.signaled s false)
    | none => .error .invalidArgument

/-- Wait for a child, or only look. -/
def wait (pid : Pid) (look : Bool) (w : World) : Except Errno WaitReport × World :=
  let w := if look then w else w.settle pid
  match child? w.kernel pid with
  | none => (.error .noChild, w)
  | some p =>
    match p.ending with
    | some ending => (reportOf ending, { w with kernel := w.kernel.collect pid })
    | none => (if look then .ok .stillAlive else .error .interrupted, w)

/-- Send a signal to a child. -/
def kill (pid : Pid) (signal : Signal) (w : World) : Except Errno Unit × World :=
  match child? w.kernel pid with
  | none => (.error .noSuchProcess, w)
  | some _ => (.ok (), { w with kernel := w.kernel.deliver pid signal.number })

/-! ## Programs and their pipes -/

/-- The descriptor on which a process reports that it could not be started. -/
def reportFd : Nat := 3

/-- Turn into the program of an argument vector, or report why not. -/
def starter (argv : List Bytes) (env : EnvStrings) : Program :=
  let task : Task Nat := do
    let e ← Task.launch (argv.headD []) argv env
    let _ ← Task.write reportFd e.toBytes
    return 127
  task.toProgram

/-- Make a further pipe whose reading end the host holds. -/
def makePipe (w : World) : Except Errno Unit × World :=
  let pipe := w.kernel.pipes.size
  let kernel := { w.kernel with pipes := w.kernel.pipes.push { isHeld := true } }
  let (kernel, sink) := kernel.addFile { target := .sink pipe, mode := { isWritable := true } }
  (.ok (), { w with kernel, pipes := (pipe, sink) :: w.pipes })

/-- Make a process that turns into the program of an argument vector, with the two pipes made last:
the first of them for its output, the second for its report. -/
def fork (argv : List Bytes) (input : Option Handle) (w : World) : Except Errno Pid × World :=
  match w.pipes with
  | (report, reportSink) :: (output, outputSink) :: pipes =>
    let fds :=
      [(0, input.getD w.stdin), (1, outputSink), (2, w.console), (reportFd, reportSink)]
    let (w, pid) := w.make (starter argv w.env) fds [reportFd] [(Signal.pipe.number, .ignored)]
    (.ok pid, { w with links := ⟨pid, report, output⟩ :: w.links, pipes })
  | _ => (.error .badDescriptor, { w with pipes := [] })

/-- The pipes from a process. -/
def link? (w : World) (pid : Pid) : Option Link := w.links.find? (·.pid = pid)

/-- Would reading from a pipe not have to wait? -/
def isReadable (pipe : Nat) (k : Kernel) : Bool := k.buffered pipe ≠ 0 || !k.hasWriter pipe

/-- Is so much in a pipe that reading it would not get more later? -/
def isPlentiful (pipe count : Nat) (k : Kernel) : Bool :=
  count ≤ k.buffered pipe || !k.hasWriter pipe

/-- How many steps the host leaves to the writers before it reads from a pipe. -/
def readingDelay : Nat := 2000

/-- Read from a pipe. -/
def readPipe (pipe : Option Nat) (count : Nat) (w : World) : Except Errno Bytes × World :=
  match pipe with
  | none => (.error .badDescriptor, w)
  | some pipe =>
    let w := w.awaiting (isReadable pipe) none
    if isReadable pipe w.kernel then
      let kernel := w.kernel.hurry (isPlentiful pipe count) readingDelay
      let (bytes, kernel) := kernel.takeBuffered pipe count
      (.ok bytes, { w with kernel })
    else (.error .interrupted, w)

/-- Wait at most so many milliseconds until reading from a pipe would not have to wait. -/
def pollPipe (pipe : Option Nat) (millis : Nat) (w : World) : Except Errno Bool × World :=
  match pipe with
  | none => (.error .badDescriptor, w)
  | some pipe =>
    let w := w.awaiting (isReadable pipe) (some (w.kernel.clock + millis * nanosPerMilli))
    (.ok (isReadable pipe w.kernel), w)

/-- Let go of the reading ends of a child's pipes. -/
def hangUp (pid : Pid) (w : World) : World :=
  match w.link? pid with
  | none => w
  | some link =>
    let pipes := (w.kernel.pipes.modify link.report fun p => { p with isHeld := false }).modify
      link.output fun p => { p with isHeld := false }
    { w with kernel := { w.kernel with pipes } }

/-! ## Files -/

/-- The permission bits that files which the host makes do not get. -/
def newFileMask : Nat := 0o022

/-- Make a new file, and open it. -/
def createNew (path : Path) (w : World) : Except Errno Handle × World :=
  match w.kernel.tree.createFile w.cwd path.bytes (0o666 - newFileMask) with
  | .error e => (.error e, w)
  | .ok (tree, id) =>
    let mode : OpenMode := { isReadable := true, isWritable := true }
    let (kernel, file) := ({ w.kernel with tree }).addFile { target := .node id, mode }
    (.ok file, { w with kernel })

/-- Open a file; the machine after that, and the open file. -/
def openFor (w : World) (path : Bytes) (mode : OpenMode) : Except Errno (Kernel × Nat) :=
  let file? (fd : Nat) : Option Nat := [(0, w.stdin), (2, w.console)].lookup fd
  w.kernel.openPath file? newFileMask w.cwd path mode

/-- Open a file for reading. -/
def openRead (path : Path) (w : World) : Except Errno Handle × World :=
  match w.openFor path.bytes { isReadable := true } with
  | .error e => (.error e, w)
  | .ok (kernel, file) => (.ok file, { w with kernel })

/-- Write bytes to an open file. -/
def append (handle : Handle) (bytes : Bytes) (w : World) : Except Errno Unit × World :=
  match w.kernel.writeFile handle bytes with
  | none => (.error .interrupted, w)
  | some (kernel, result) => (result.map fun _ => (), { w with kernel })

/-- Read at most so many bytes of an open file. -/
def read (handle : Handle) (count : Nat) (w : World) : Except Errno Bytes × World :=
  match w.kernel.readFile handle count with
  | none => (.error .interrupted, w)
  | some (kernel, result) => (result, { w with kernel })

/-- Remove the name of a file. -/
def remove (path : Path) (w : World) : Except Errno Unit × World :=
  match w.kernel.tree.unlink w.cwd path.bytes with
  | .error e => (.error e, w)
  | .ok tree => (.ok (), w.mapTree fun _ => tree)

/-! ## The calls -/

/-- How many answers a single loop of the library waits for. -/
def patience : Nat := 1000000000

/-- The calls of the library on a machine. -/
def host : Host World where
  patience _ := patience
  createNew := createNew
  openRead := openRead
  append := append
  close _ w := w
  remove := remove
  makePipe := makePipe
  fork := fork
  readReport pid count w := readPipe ((w.link? pid).map Link.report) count w
  readOutput pid count w := readPipe ((w.link? pid).map Link.output) count w
  pollOutput pid millis w := pollPipe ((w.link? pid).map Link.output) millis w
  hangUp := hangUp
  wait := wait
  kill := kill
  now w := (w.kernel.clock, w)
  sleep nanoseconds w := w.awaiting (fun _ => false) (some (w.kernel.clock + nanoseconds))
  writeOut bytes w :=
    if w.isFull then (.error .noSpace, w)
    else (.ok bytes.length, { w with written := bytes :: w.written })
  tell message w :=
    { w with kernel := { w.kernel with transcript := .message message :: w.kernel.transcript } }

/-! ## The standard error output -/

/-- The bytes of a piece of the standard error output. -/
def entryBytes (threshold : Level) (wording : Notice.Wording) : Entry → Bytes
  | .bytes b => b
  | .message m => (m.lines threshold wording).flatMap fun line =>
    Bytes.ofString line ++ [Bytes.newline]

/-- What the standard error output got. -/
def diagnostics (w : World) (threshold : Level) (wording : Notice.Wording) : Bytes :=
  w.kernel.transcript.reverse.flatMap (entryBytes threshold wording)

end World

end CommandExpr.Machine
