import CommandExpr.Machine.Program
import CommandExpr.Notice
import CommandExpr.Numeral

/-!
# The kernel of the machine

Processes, descriptors, pipes, signals and a clock. The kernel is moved on only as far as somebody
waits for it: each step carries out one request of one process that can go on, and when none can,
the clock jumps to the end of the next sleep.

## Main definitions

* `Kernel` — the state
* `Kernel.perform` — the reply to a request, or that the process has to wait
* `Kernel.step` — one step of one process
* `Kernel.advance` — steps until a condition holds or the clock reaches a limit
-/

namespace CommandExpr.Machine

/-- What a descriptor leads to. -/
inductive Target where
  /-- A node of the file tree. -/
  | node (id : NodeId)
  /-- The reading end of a pipe. -/
  | source (pipe : Nat)
  /-- The writing end of a pipe. -/
  | sink (pipe : Nat)
  /-- The standard error output of the host. -/
  | console
  deriving DecidableEq

/-- An open file: descriptors that share it share its offset. -/
structure OpenFile where
  /-- Where it leads. -/
  target : Target
  /-- How far it was read or written. -/
  offset : Nat := 0
  /-- How it was opened. -/
  mode : OpenMode

/-- A pipe. -/
structure Pipe where
  /-- The bytes that are read next. -/
  front : Bytes := []
  /-- What was written after them, the last piece first. -/
  back : List Bytes := []
  /-- How many bytes were written and not yet read. -/
  size : Nat := 0
  /-- Does the host hold the reading end? -/
  isHeld : Bool := false

namespace Pipe

/-- The pipe after a write. -/
def push (p : Pipe) (bytes : Bytes) : Pipe :=
  if bytes.isEmpty then p else { p with back := bytes :: p.back, size := p.size + bytes.length }

/-- At most so many of the bytes that were written first, and the pipe without them. -/
def take (p : Pipe) (count : Nat) : Bytes × Pipe :=
  let front := if p.front.length < count then p.front ++ p.back.reverse.flatten else p.front
  let back := if p.front.length < count then [] else p.back
  let bytes := front.take count
  (bytes, { p with front := front.drop count, back, size := p.size - bytes.length })

end Pipe

/-- A process. -/
structure Process where
  /-- Its number. -/
  pid : Nat
  /-- The process that waits for it. -/
  parent : Nat
  /-- The process that leads its group. -/
  group : Nat := 0
  /-- What it does from here on. -/
  program : Program
  /-- The open file of each descriptor. -/
  fds : List (Nat × Nat) := []
  /-- The descriptors that are closed when it turns into another program. -/
  guarded : List Nat := []
  /-- Its current directory. -/
  cwd : NodeId
  /-- The permission bits that files which it makes do not get. -/
  mask : Nat := 0o022
  /-- When its sleep ends. -/
  wake : Option Nat := none
  /-- Was it stopped? -/
  isStopped : Bool := false
  /-- The signals that came in while it was stopped. -/
  held : List Nat := []
  /-- What signals do to it, the default left out. -/
  dispositions : List (Nat × Disposition) := []
  /-- The caught signals that it has not taken yet. -/
  caught : List Nat := []
  /-- How it ended. -/
  ending : Option Ending := none

/-- A piece of the host's standard error output. -/
inductive Entry where
  /-- Bytes that a program wrote. -/
  | bytes (b : Bytes)
  /-- A message of the library. -/
  | message (m : Message)

/-- The state of the machine. -/
structure Kernel where
  /-- The files. -/
  tree : FileTree
  /-- The open files. -/
  files : Array OpenFile
  /-- The pipes. -/
  pipes : Array Pipe
  /-- The processes that were made and not waited for. -/
  processes : List Process
  /-- Nanoseconds since the start. -/
  clock : Nat
  /-- The number of the next process. -/
  nextPid : Nat
  /-- When the processes are asked in another order. -/
  turnEnd : Nat := 0
  /-- The standard error output, the last piece first. -/
  transcript : List Entry
  /-- The programs by name: given argument vector and environment, what they do. -/
  images : String → List Bytes → List Bytes → Program

/-- What comes of a request. -/
inductive Outcome where
  /-- The process has to wait. -/
  | blocked
  /-- The machine replies. -/
  | replied (k : Kernel) (r : Reply)
  /-- The process has turned into another program. -/
  | replaced (k : Kernel)

namespace Process

/-- What a signal does to the process. -/
def disposition (p : Process) (signal : Nat) : Disposition :=
  (p.dispositions.lookup signal).getD .default

/-- The process with another disposition for a signal. -/
def withDisposition (p : Process) (signal : Nat) (d : Disposition) : Process :=
  let others := p.dispositions.filter fun (s, _) => s ≠ signal
  { p with dispositions := if d = .default then others else (signal, d) :: others }

/-- The open file of a descriptor. -/
def file? (p : Process) (fd : Nat) : Option Nat := p.fds.lookup fd

/-- The least descriptor from `low` on that is not open; there is one among as many as are open and
one more. -/
def freeFd (p : Process) (low : Nat) : Nat :=
  ((List.range (p.fds.length + 1)).map (low + ·)).find? (fun fd => (p.file? fd).isNone)
    |>.getD low

/-- The process with a descriptor closed. -/
def closing (p : Process) (fd : Nat) : Process :=
  { p with fds := p.fds.filter (fun (n, _) => n ≠ fd), guarded := p.guarded.filter (· ≠ fd) }

/-- The process with a descriptor for an open file. -/
def opening (p : Process) (fd file : Nat) : Process :=
  let p := p.closing fd
  { p with fds := (fd, file) :: p.fds }

end Process

namespace Kernel

/-- The process that adopts those whose parent has ended. -/
def adopter : Nat := 1

/-- The host, as a parent. -/
def hostPid : Nat := 0

/-- How many bytes a pipe holds. -/
def pipeCapacity : Nat := 65536

/-- How long a step takes, in nanoseconds. -/
def stepTime : Nat := 1000

/-- How long it takes to move a byte, in nanoseconds. -/
def byteTime : Nat := 40

/-- How long a pause takes in which a program only computes, in nanoseconds. -/
def tickTime : Nat := 5000

/-- The longest single argument, its end mark included. -/
def maxArgument : Nat := 131072

/-- The most that all arguments and variables take up together. -/
def maxArguments : Nat := 2097152

/-- How many interpreters may stand between a script and a program. -/
def maxInterpreters : Nat := 5

/-- How many bytes of a script are looked at for its interpreter. -/
def headLength : Nat := 256

/-- The kernel some nanoseconds later. -/
def later (k : Kernel) (nanoseconds : Nat) : Kernel := { k with clock := k.clock + nanoseconds }

/-- A process by number. -/
def process? (k : Kernel) (pid : Nat) : Option Process := k.processes.find? (·.pid = pid)

/-- The kernel with a process changed. -/
def mapProcess (k : Kernel) (pid : Nat) (f : Process → Process) : Kernel :=
  { k with processes := k.processes.map fun p => if p.pid = pid then f p else p }

/-- The kernel with an open file changed. -/
def mapFile (k : Kernel) (file : Nat) (f : OpenFile → OpenFile) : Kernel :=
  { k with files := k.files.modify file f }

/-- The kernel with a further open file; its number. -/
def addFile (k : Kernel) (file : OpenFile) : Kernel × Nat :=
  ({ k with files := k.files.push file }, k.files.size)

/-- Does some process have an open file with the given target? -/
def hasTarget (k : Kernel) (target : Target) : Bool :=
  k.processes.any fun p => p.fds.any fun (_, file) =>
    (k.files[file]?).any fun f => f.target = target

/-- Can anybody still write into a pipe? -/
def hasWriter (k : Kernel) (pipe : Nat) : Bool := k.hasTarget (.sink pipe)

/-- Can anybody still read from a pipe? -/
def hasReader (k : Kernel) (pipe : Nat) : Bool :=
  (k.pipes[pipe]?).any (·.isHeld) || k.hasTarget (.source pipe)

/-- How many bytes are in a pipe. -/
def buffered (k : Kernel) (pipe : Nat) : Nat := (k.pipes.getD pipe {}).size

/-- At most so many of the bytes in a pipe, and the kernel without them. -/
def takeBuffered (k : Kernel) (pipe count : Nat) : Bytes × Kernel :=
  let (bytes, p) := (k.pipes.getD pipe {}).take count
  (bytes, { k with pipes := k.pipes.set! pipe p })

/-! ## Signals and ends -/

/-- End a process. Its children go to the adopter; nobody waits for the adopter's. -/
def finish (k : Kernel) (pid : Nat) (ending : Ending) : Kernel :=
  let k := k.mapProcess pid fun p => { p with ending := some ending, fds := [], wake := none }
  let processes := k.processes.map fun p => if p.parent = pid then { p with parent := adopter } else p
  { k with processes := processes.filter fun p => !(p.parent = adopter && p.ending.isSome) }

/-- The signals that end a process unless it says otherwise are all but these. -/
def isHarmless (signal : Nat) : Bool := [17, 18, 23, 28].contains signal

/-- The signals that stop a process unless it says otherwise. -/
def isStop (signal : Nat) : Bool := [19, 20, 21, 22].contains signal

/-- The number of the signal that ends a process whatever it says. -/
def killNumber : Nat := Signal.kill.number

/-- The number of the signal that stops a process whatever it says. -/
def stopNumber : Nat := Signal.stop.number

/-- The number of the signal that lets a stopped process go on. -/
def contNumber : Nat := Signal.cont.number

/-- The signals that tell of a fault in what a process does. -/
def isFault (signal : Nat) : Bool := [4, 5, 7, 8, 11, 31].contains signal

/-- The order in which signals that came in together act: faults first, then by number. -/
def urgency (signal : Nat) : Nat := if isFault signal then signal else 64 + signal

/-- Let a signal act on a process that is not stopped. -/
def act (k : Kernel) (pid signal : Nat) : Kernel :=
  match k.process? pid with
  | none => k
  | some p =>
    if p.ending.isSome then k
    else if signal = killNumber then k.finish pid (.signal signal)
    else if signal = stopNumber then k.mapProcess pid fun p => { p with isStopped := true }
    else match p.disposition signal with
      | .ignored => k
      | .caught =>
        let others := p.caught.filter (· ≠ signal)
        k.mapProcess pid fun p => { p with caught := others ++ [signal] }
      | .default =>
        if isHarmless signal then k
        else if isStop signal then k.mapProcess pid fun p => { p with isStopped := true }
        else k.finish pid (.signal signal)

/-- Send a signal to a process. One that is stopped keeps what comes in until it goes on; what would
stop it again is dropped then. -/
def deliver (k : Kernel) (pid signal : Nat) : Kernel :=
  match k.process? pid with
  | none => k
  | some p =>
    if p.ending.isSome then k
    else if signal = killNumber then k.finish pid (.signal signal)
    else if signal = contNumber then
      let k := k.mapProcess pid fun p => { p with isStopped := false, held := [] }
      let held := (p.held.filter fun s => !isStop s).mergeSort (urgency · ≤ urgency ·)
      (held ++ [signal]).foldl (fun k s => k.act pid s) k
    else if p.isStopped then
      k.mapProcess pid fun p =>
        if p.held.contains signal || p.disposition signal = .ignored then p
        else { p with held := p.held ++ [signal] }
    else k.act pid signal

/-! ## Reading and writing -/

/-- The first bytes that a device gives. -/
def deviceBytes (count : Nat) : Device → Bytes
  | .null | .terminal => []
  | .zero | .full | .random => List.replicate count 0

/-- Read from an open file; none if that has to wait. -/
def readFile (k : Kernel) (file count : Nat) : Option (Kernel × Except Errno Bytes) :=
  match k.files[file]? with
  | none => some (k, .error .badDescriptor)
  | some f =>
    if !f.mode.isReadable then some (k, .error .badDescriptor)
    else match f.target with
      | .node id =>
        match k.tree.node id with
        | .file data _ =>
          let bytes := FileTree.slice data f.offset count
          some (k.mapFile file fun f => { f with offset := f.offset + bytes.length }, .ok bytes)
        | .directory .. => some (k, .error .isDirectory)
        | .device d => some (k, .ok (deviceBytes count d))
        | .image _ | .link _ | .descriptor _ | .pipe => some (k, .ok [])
      | .source pipe =>
        if k.buffered pipe ≠ 0 then
          let (bytes, k) := k.takeBuffered pipe count
          some (k, .ok bytes)
        else if k.hasWriter pipe then none
        else some (k, .ok [])
      | .sink _ | .console => some (k, .error .badDescriptor)

/-- Write to an open file; none if that has to wait. -/
def writeFile (k : Kernel) (file : Nat) (bytes : Bytes) : Option (Kernel × Except Errno Nat) :=
  match k.files[file]? with
  | none => some (k, .error .badDescriptor)
  | some f =>
    if !f.mode.isWritable then some (k, .error .badDescriptor)
    else match f.target with
      | .node id =>
        match k.tree.node id with
        | .file data _ =>
          let offset := if f.mode.isAppending then data.size else f.offset
          let tree := k.tree.mapData id fun data => FileTree.splice data offset bytes
          some (({ k with tree }).mapFile file fun f => { f with offset := offset + bytes.length },
            .ok bytes.length)
        | .device .full => some (k, .error .noSpace)
        | .device _ => some (k, .ok bytes.length)
        | _ => some (k, .error .badDescriptor)
      | .sink pipe =>
        if !k.hasReader pipe then some (k, .error .brokenPipe)
        else
          let room := pipeCapacity - k.buffered pipe
          if room = 0 && !bytes.isEmpty then none
          else
            let pipes := k.pipes.modify pipe (·.push (bytes.take room))
            some ({ k with pipes }, .ok (min room bytes.length))
      | .console => some ({ k with transcript := .bytes bytes :: k.transcript }, .ok bytes.length)
      | .source _ => some (k, .error .badDescriptor)

/-- What a node stands for: itself, or what a descriptor leads to. -/
def standsFor (k : Kernel) (file? : Nat → Option Nat) (id : NodeId) : Option Target :=
  match k.tree.node id with
  | .descriptor fd => ((file? fd).bind fun file => k.files[file]?).map OpenFile.target
  | _ => some (.node id)

/-- The permission bits that opening asks for. -/
def askedBits (mode : OpenMode) : Nat :=
  (if mode.isReadable then 4 else 0) + (if mode.isWritable then 2 else 0)

/-- Open a node that is there. -/
def openNode (k : Kernel) (id : NodeId) (mode : OpenMode) : Except Errno (Kernel × Nat) := do
  let node := k.tree.node id
  if node.isDirectory && mode.isWritable then throw .isDirectory
  if !node.allows (askedBits mode) then throw .accessDenied
  if node = .device .terminal then throw .noSuchDevice
  let tree := if mode.truncates then k.tree.mapData id fun _ => .empty else k.tree
  return ({ k with tree }).addFile { target := .node id, mode }

/-- Open the file of a path, given the open files of descriptors, for a process in a directory whose
new files lack some permission bits; the new open file. -/
def openPath (k : Kernel) (file? : Nat → Option Nat) (mask : Nat) (cwd : NodeId) (path : Bytes)
    (mode : OpenMode) : Except Errno (Kernel × Nat) := do
  if mode.creates && FileTree.endsWithSlash path then
    let _ ← k.tree.slot cwd path
    throw .isDirectory
  let place ← k.tree.place cwd path true
  match place.node? with
  | some id =>
    match k.standsFor file? id with
    | none => throw .notFound
    | some (.node id) => k.openNode id mode
    | some (.source pipe) | some (.sink pipe) =>
      let target := if mode.isReadable then Target.source pipe else .sink pipe
      return k.addFile { target, mode }
    | some .console => return k.addFile { target := .console, mode }
  | none =>
    if !mode.creates then throw .notFound
    if place.hasSlash then throw .isDirectory
    k.tree.mayChange place.dir
    let bits := 0o666 - (0o666 &&& mask)
    let (tree, id) := k.tree.insert place.dir place.name (.file .empty bits)
    return ({ k with tree }).addFile { target := .node id, mode }

/-- How many names a node has. -/
def linksOf (k : Kernel) (id : NodeId) : Nat :=
  let names :=
    Numeral.total (k.tree.nodes.toList.map fun n => n.entries.countP fun (_, i) => i = id)
  match k.tree.node id with
  | .directory _ entries _ => 2 + entries.countP fun (_, i) => (k.tree.node i).isDirectory
  | _ => names

/-- What is known about what a descriptor or a node leads to. -/
def infoOf (k : Kernel) : Target → FileInfo
  | .node id => ⟨k.tree.node id, id, k.linksOf id⟩
  | _ => ⟨.pipe, k.tree.nodes.size, 1⟩

/-! ## Turning into a program -/

/-- Is it a blank of a script's first line? -/
def isLineBlank (b : UInt8) : Bool := b = 32 || b = 9

/-- The line at the start of a script that names its interpreter, if there is one. Where a script is
at its end, zeros take the place of what is missing; a line that is not at its end by then lacks a
part of the argument, but never a part of the interpreter's name. -/
def interpreterLine? (start : Bytes) : Option Bytes :=
  match start with
  | 35 :: 33 :: given =>
    let head := given ++ List.replicate (headLength - 2 - given.length) 0
    let front := head.takeWhile fun b => b ≠ Bytes.newline && b ≠ 0
    if head[front.length]? = some Bytes.newline then some front
    else
      let isNameWhole := (head.dropWhile isLineBlank).any fun b => isLineBlank b || b = 0
      if isNameWhole then some head.dropLast else none
  | _ => none

/-- The interpreter of a line, and the one argument that it is given. Both end at a zero byte; a
blank in front of one makes an empty argument. -/
def interpreter? (line : Bytes) : Option (Bytes × List Bytes) :=
  let body := ((line.dropWhile isLineBlank).reverse.dropWhile isLineBlank).reverse
  let path := body.takeWhile fun b => !isLineBlank b && b ≠ 0
  let after := body.drop path.length
  let argument := (after.dropWhile isLineBlank).takeWhile (· ≠ 0)
  if body.isEmpty then none
  else some (path, if (after.head?).any isLineBlank then [argument] else [])

/-- The program that the file of a path turns a process into. -/
def load (k : Kernel) (cwd : NodeId) (env : List Bytes) :
    Nat → Bytes → List Bytes → Except Errno Program
  | 0, _, _ => .error .linkLoop
  | fuel + 1, path, argv => do
    let id ← k.tree.find cwd path true
    match k.tree.node id with
    | .image name => .ok (k.images name argv env)
    | .file data mode =>
      if !(Node.file data mode).allows 1 then .error .accessDenied
      else match (interpreterLine? (FileTree.slice data 0 headLength)).bind interpreter? with
        | none => .error .execFormat
        | some (interpreter, argument) =>
          if interpreter.isEmpty then .error .accessDenied
          else load k cwd env fuel interpreter ([interpreter] ++ argument ++ path :: argv.drop 1)
    | _ => .error .accessDenied

/-- Are arguments or variables too long for a new program? -/
def isTooLong (strings : List Bytes) : Bool :=
  strings.any (fun s => maxArgument < s.length + 1)
    || maxArguments < Numeral.total (strings.map fun s => s.length + 9)

/-- Turn a process into the program of a path. -/
def exec (k : Kernel) (p : Process) (path : Bytes) (argv env : List Bytes) :
    Except Errno Kernel := do
  if isTooLong (argv ++ env) then throw .argumentListTooLong
  let program ← k.load p.cwd env (maxInterpreters + 1) path argv
  return k.mapProcess p.pid fun p =>
    { p with
      program
      fds := p.fds.filter fun (fd, _) => !p.guarded.contains fd
      guarded := []
      caught := []
      dispositions := p.dispositions.filter fun (_, d) => d ≠ .caught }

/-! ## Requests -/

/-- The reply that carries nothing but success or an error. -/
def plain (k : Kernel) : Except Errno Kernel → Outcome
  | .ok k => .replied k .done
  | .error e => .replied k (.error e)

/-- The reply to a change of the file tree. -/
def onTree (k : Kernel) (result : Except Errno FileTree) : Outcome :=
  k.plain (result.map fun tree => { k with tree })

/-- Wait for a child that has ended: none of that kind, none that has ended yet, or one of them. -/
def waitFor (k : Kernel) (parent : Nat) (pid : Option Nat) : Option (Option Process) :=
  let children := k.processes.filter fun p =>
    p.parent = parent && (pid.isNone || pid = some p.pid)
  if children.isEmpty then none else some (children.find? (·.ending.isSome))

/-- The kernel without a process. -/
def collect (k : Kernel) (pid : Nat) : Kernel :=
  { k with processes := k.processes.filter (·.pid ≠ pid) }

/-- What comes of a request of a process. -/
def perform (k : Kernel) (p : Process) : Request → Outcome
  | .read fd count =>
    match p.file? fd with
    | none => .replied k (.error .badDescriptor)
    | some file =>
      match k.readFile file count with
      | none => .blocked
      | some (k, .ok bytes) => .replied (k.later (bytes.length * byteTime)) (.bytes bytes)
      | some (k, .error e) => .replied k (.error e)
  | .write fd bytes =>
    match p.file? fd with
    | none => .replied k (.error .badDescriptor)
    | some file =>
      match k.writeFile file bytes with
      | none => .blocked
      | some (k, .ok n) => .replied (k.later (n * byteTime)) (.number n)
      | some (k, .error e) =>
        let k := if e = .brokenPipe then k.deliver p.pid Signal.pipe.number else k
        .replied k (.error e)
  | .open path mode =>
    match k.openPath p.file? p.mask p.cwd path mode with
    | .error e => .replied k (.error e)
    | .ok (k, file) =>
      let fd := p.freeFd 0
      .replied (k.mapProcess p.pid (·.opening fd file)) (.number fd)
  | .close fd =>
    if (p.file? fd).isNone then .replied k (.error .badDescriptor)
    else .replied (k.mapProcess p.pid (·.closing fd)) .done
  | .redirect source target =>
    match p.file? source with
    | none => .replied k (.error .badDescriptor)
    | some file =>
      if source = target then .replied k .done
      else .replied (k.mapProcess p.pid (·.opening target file)) .done
  | .save fd =>
    match p.file? fd with
    | none => .replied k (.error .badDescriptor)
    | some file =>
      let copy := p.freeFd 10
      let k := k.mapProcess p.pid fun p =>
        let p := p.opening copy file
        { p with guarded := copy :: p.guarded }
      .replied k (.number copy)
  | .isOpen fd => .replied k (if (p.file? fd).isSome then .done else .error .badDescriptor)
  | .moveBack fd count =>
    match p.file? fd with
    | none => .replied k (.error .badDescriptor)
    | some file => .replied (k.mapFile file fun f => { f with offset := f.offset - count }) .done
  | .infoOf fd =>
    match ((p.file? fd).bind fun file => k.files[file]?).map OpenFile.target with
    | some target => .replied k (.info (k.infoOf target))
    | none => .replied k (.error .badDescriptor)
  | .pipe =>
    let pipe := k.pipes.size
    let k := { k with pipes := k.pipes.push {} }
    let (k, source) := k.addFile { target := .source pipe, mode := { isReadable := true } }
    let (k, sink) := k.addFile { target := .sink pipe, mode := { isWritable := true } }
    let first := p.freeFd 0
    let second := (p.opening first source).freeFd 0
    let k := k.mapProcess p.pid fun p => (p.opening first source).opening second sink
    .replied k (.pair first second)
  | .exec path argv env =>
    match k.exec p path argv env with
    | .ok k => .replaced k
    | .error e => .replied k (.error e)
  | .wait pid look =>
    match k.waitFor p.pid pid with
    | none => .replied k (.error .noChild)
    | some none => if look then .replied k .done else .blocked
    | some (some child) =>
      .replied (k.collect child.pid) (.ended child.pid (child.ending.getD (.code 0)))
  | .kill pid signal =>
    match k.process? pid with
    | none => .replied k (.error .noSuchProcess)
    | some _ => .replied (if signal = 0 then k else k.deliver pid signal) .done
  | .leadGroup => .replied (k.mapProcess p.pid fun p => { p with group := p.pid }) .done
  | .killGroup signal =>
    let others := k.processes.filter fun q => q.group = p.group && q.pid ≠ p.pid
    .replied (others.foldl (fun k q => k.deliver q.pid signal) k) .done
  | .sleep nanoseconds =>
    match p.wake with
    | none =>
      .replaced (k.mapProcess p.pid fun p => { p with wake := some (k.clock + nanoseconds) })
    | some wake =>
      if wake ≤ k.clock then .replied (k.mapProcess p.pid fun p => { p with wake := none }) .done
      else .blocked
  | .self => .replied k (.number p.pid)
  | .parent => .replied k (.number p.parent)
  | .info path follow =>
    match k.tree.find p.cwd path follow with
    | .ok id =>
      match (if follow then k.standsFor p.file? id else some (.node id)) with
      | some target => .replied k (.info (k.infoOf target))
      | none => .replied k (.error .notFound)
    | .error e => .replied k (.error e)
  | .makeDirectory path mode =>
    k.onTree (k.tree.makeDirectory p.cwd path (mode - (mode &&& p.mask)))
  | .removeDirectory path => k.onTree (k.tree.removeDirectory p.cwd path)
  | .unlink path => k.onTree (k.tree.unlink p.cwd path)
  | .rename old new => k.onTree (k.tree.rename p.cwd old new)
  | .makeName old new => k.onTree (k.tree.makeName p.cwd old new)
  | .makeLink target path => k.onTree (k.tree.makeLink p.cwd target path)
  | .changeMode path mode =>
    k.onTree ((k.tree.find p.cwd path true).map fun id => k.tree.update id (·.withMode mode))
  | .changeDirectory path =>
    match k.tree.find p.cwd path true with
    | .error e => .replied k (.error e)
    | .ok id =>
      if !(k.tree.node id).isDirectory then .replied k (.error .notDirectory)
      else if !k.tree.isSearchable id then .replied k (.error .accessDenied)
      else .replied (k.mapProcess p.pid fun p => { p with cwd := id }) .done
  | .setMask mask =>
    .replied (k.mapProcess p.pid fun p => { p with mask }) (.number p.mask)
  | .currentDirectory => .replied k (.bytes (pathOf k.tree k.tree.nodes.size p.cwd))
  | .setSignal signal d =>
    .replied (k.mapProcess p.pid (·.withDisposition signal d)) .done
  | .signalState signal => .replied k (.disposition (p.disposition signal))
  | .takeSignals =>
    .replied (k.mapProcess p.pid fun p => { p with caught := [] }) (.signals p.caught)
  | .tick => .replied (k.later tickTime) .done
where
  /-- The path of a directory from the root. -/
  pathOf (t : FileTree) : Nat → NodeId → Bytes
    | 0, _ => [Bytes.slash]
    | fuel + 1, dir =>
      if dir = FileTree.root then [Bytes.slash]
      else
        let parent := t.parent dir
        let name := ((t.node parent).entries.find? fun (_, id) => id = dir).map (·.1)
        ((⟨pathOf t fuel parent⟩ : Path).join (name.getD [])).bytes

/-- Is the request one that a caught signal cuts short? -/
def isInterruptible : Request → Bool
  | .wait .. | .sleep _ | .read .. | .write .. => true
  | _ => false

/-- One step of a process; none if it cannot go on. -/
def stepProcess (k : Kernel) (p : Process) : Option Kernel :=
  if p.ending.isSome || p.isStopped then none
  else match p.program with
    | .exit code => some (k.finish p.pid (.code (code % 256)))
    | .fork child next =>
      let pid := k.nextPid
      let new : Process :=
        { p with pid, parent := p.pid, program := child, wake := none, held := [], caught := [] }
      let k := k.mapProcess p.pid fun p => { p with program := next pid }
      some { k with processes := k.processes ++ [new], nextPid := pid + 1 }
    | .call request next =>
      let go (k : Kernel) (reply : Reply) : Kernel :=
        k.mapProcess p.pid fun p =>
          if p.ending.isSome then p else { p with program := next reply, wake := none }
      match k.perform p request with
      | .replied k reply => some (go k reply)
      | .replaced k => some k
      | .blocked =>
        if !p.caught.isEmpty && isInterruptible request then some (go k (.error .interrupted))
        else none

/-- How long a process goes on before the others are asked first, in nanoseconds. -/
def turnTime : Nat := 20000000

/-- The kernel with its first process moved behind the others, if it had its turn. -/
def rotated (k : Kernel) : Kernel :=
  if k.clock < k.turnEnd then k
  else
    let processes := k.processes.drop 1 ++ k.processes.take 1
    { k with processes, turnEnd := k.clock + turnTime }

/-- Is the sleep of a process over? -/
def isAwake (k : Kernel) (p : Process) : Bool := p.wake.any (· ≤ k.clock)

/-- One step: of a process whose sleep is over, or else of the first process that can go on. -/
def step (k : Kernel) : Option Kernel :=
  let k := k.rotated
  let woken := (k.processes.filter k.isAwake).findSome? k.stepProcess
  (woken.orElse fun _ => k.processes.findSome? k.stepProcess).map (·.later stepTime)

/-- The kernel with its clock put forward while nothing goes on. -/
def jump (k : Kernel) (clock : Nat) : Kernel :=
  { k with clock, turnEnd := k.turnEnd + (clock - k.clock) }

/-- When the next sleep ends. -/
def nextWake (k : Kernel) : Option Nat :=
  (k.processes.filterMap fun p => if p.isStopped then none else p.wake).min?

/-- Move on until a condition holds, without waiting for the end of a sleep, for a few steps. -/
def hurry (until_ : Kernel → Bool) : Nat → Kernel → Kernel
  | 0, k => k
  | fuel + 1, k =>
    if until_ k then k
    else match k.step with
      | some k => hurry until_ fuel k
      | none => k

/-- Move on until a condition holds, until nothing moves any more, or until the clock reaches the
limit. -/
def advance (until_ : Kernel → Bool) (limit : Option Nat) : Nat → Kernel → Kernel
  | 0, k => k
  | fuel + 1, k =>
    if until_ k || limit.any (· ≤ k.clock) then k
    else
      match k.step with
      | some k => advance until_ limit fuel k
      | none =>
        match k.nextWake, limit with
        | some wake, some limit =>
          if wake < limit then advance until_ (some limit) fuel (k.jump wake) else k.jump limit
        | some wake, none => advance until_ none fuel (k.jump wake)
        | none, some limit => k.jump limit
        | none, none => k

/-- How many steps a single wait of the host covers. -/
def longestAdvance : Nat := 100000000

end Kernel

end CommandExpr.Machine
