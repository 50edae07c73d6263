import CommandExpr.Child
import CommandExpr.Relay

/-!
# Running one program

A program is started with its argument vector and a source for its input, its output is read to the
end, and its end is waited for, all within the deadline of the evaluation if there is one.

The process reports on a second pipe: the pipe is closed when the process turns into the program,
and carries the four bytes of an error code if it cannot. So a program that was started and returns
127 is never mistaken for one that was not started.

## Main definitions

* `InputSource` — where a program's input comes from
* `Runner` — capacity and deadline
* `Runner.drain` — the output of a program, read to its end
* `Runner.launch` — a process from its making to its end
* `Runner.run` — the whole
-/

namespace CommandExpr

/-- Where a program's input comes from. -/
inductive InputSource where
  /-- Whatever the host was given. -/
  | inherited
  /-- The output of the stage before. -/
  | relay (r : Relay)
  deriving DecidableEq

/-- How programs are run. -/
structure Runner where
  /-- Bytes kept of a program's output. -/
  cap : Nat
  /-- When the time is up. -/
  deadline : Option Instant
  deriving DecidableEq

namespace Runner

variable {σ : Type}

/-- How many bytes are asked for at a time. -/
def readChunk : Nat := 4096

/-- The longest single wait for output, in milliseconds. -/
def longestPoll : Nat := 65535

/-- Wait until there is output to read, or its end. False if the deadline has passed before. The
rest of a millisecond counts as a whole one. -/
def waitReadable (h : Host σ) (r : Runner) (pid : Pid) : Nat → Action σ (Except Failure Bool)
  | 0 => return .error .stalled
  | fuel + 1 => do
    match r.deadline with
    | none => return .ok true
    | some deadline =>
      let left := deadline - (← Host.call h.now)
      if left = 0 then return .ok false
      else
        let millis := max 1 (min (left / nanosPerMilli) longestPoll)
        match ← Host.call (h.pollOutput pid millis) with
        | .ok true => return .ok true
        | .ok false => waitReadable h r pid fuel
        | .error e =>
          if e = .interrupted then waitReadable h r pid fuel
          else return .error (.ofErrno e)

/-- Wait until there is output to read, if there is a deadline; a read waits by itself. -/
def awaitOutput (h : Host σ) (r : Runner) (pid : Pid) : Action σ (Except Failure Bool) := do
  match r.deadline with
  | none => return .ok true
  | some _ => waitReadable h r pid (← h.budget)

/-- Read the output of a process to its end into a buffer. What does not fit is read all the same,
so that the writer never has to wait for long. -/
def drainInto (h : Host σ) (r : Runner) (program : String) (pid : Pid) :
    Nat → Capture → Action σ (Except Failure Capture)
  | 0, _ => return .error .stalled
  | fuel + 1, output => do
    match ← awaitOutput h r pid with
    | .error f => return .error f
    | .ok false => return .error (.stillWriting program)
    | .ok true =>
      match ← Host.call (h.readOutput pid readChunk) with
      | .ok [] => return .ok output
      | .ok chunk => drainInto h r program pid fuel (output.append chunk)
      | .error e =>
        if e = .interrupted then drainInto h r program pid fuel output
        else return .error (.ofIoError (.ofErrno e))

/-- The output of a process, read to its end. -/
def drain (h : Host σ) (r : Runner) (program : String) (pid : Pid) :
    Action σ (Except Failure Capture) := do
  let result ← drainInto h r program pid (← h.budget) (.empty r.cap)
  match result with
  | .ok output => if output.isTruncated then h.note (.truncated program r.cap)
  | .error _ => pure ()
  return result

/-- Read the report of a process after the bytes read so far, up to a whole error code or its end. -/
def readReportFrom (h : Host σ) (pid : Pid) : Nat → Bytes → Action σ (Except Failure Bytes)
  | 0, _ => return .error .stalled
  | fuel + 1, seen => do
    if Errno.byteCount ≤ seen.length then return .ok seen
    else
      match ← Host.call (h.readReport pid (Errno.byteCount - seen.length)) with
      | .ok [] => return .ok seen
      | .ok more => readReportFrom h pid fuel (seen ++ more)
      | .error e =>
        if e = .interrupted then readReportFrom h pid fuel seen
        else return .error (.ofIoError (.ofErrno e))

/-- Why a process could not turn into its program; none if it did. -/
def startError (h : Host σ) (pid : Pid) : Action σ (Except Failure (Option Errno)) := do
  match ← readReportFrom h pid (← h.budget) [] with
  | .error f => return .error f
  | .ok [] => return .ok none
  | .ok report =>
    match Errno.ofBytes? report with
    | some e => return .ok (some e)
    | none => return .error .brokenStartReport

/-- Watch over a process that was made: read its report, its output, and its end. -/
def supervise (h : Host σ) (r : Runner) (program : String) (c : Child) :
    Action σ (Except Failure (Capture × Status) × Child) := do
  match ← startError h c.pid with
  | .error f => return (.error f, c)
  | .ok (some errno) =>
    let (result, c) ← c.wait h
    match result with
    | .error e => return (.error (.ofErrno e), c)
    | .ok status =>
      h.note (.notStarted program errno status)
      return (.error (.notStarted program errno), c)
  | .ok none =>
    let drained ← drain h r program c.pid
    Host.change (h.hangUp c.pid)
    match drained with
    | .error f => return (.error f, c)
    | .ok output =>
      let (result, c) ← c.waitUntil h r.deadline
      match result with
      | .error f => return (.error f, c)
      | .ok status =>
        h.note (.ended program status output.length)
        return (.ok (output, status), c)

/-- Open the source of a program's input. -/
def openInput (h : Host σ) : InputSource → Attempt σ (Option Handle)
  | .inherited => return none
  | .relay r => some <$> r.openForRead h

/-- Make the process of a program whose input is open, and watch over it to its end. -/
def launch (h : Host σ) (r : Runner) (program : String) (argv : List Bytes)
    (handle? : Option Handle) : Attempt σ (Capture × Status) := do
  let made ← Host.ask (h.spawn argv handle?)
  match handle? with
  | some handle => Host.change (h.close handle)
  | none => pure ()
  match made with
  | .error e => throw (.ofErrno e)
  | .ok pid =>
    h.note (.spawned program pid)
    Host.settle (Child.guarding h ⟨pid, program, none⟩ (supervise h r program))

/-- Run a program: its captured output and how it ended. Whatever happens, the process that was
made has been waited for when this returns. -/
def run (h : Host σ) (r : Runner) (argv : List Bytes) (input : InputSource) :
    Attempt σ (Capture × Status) := do
  match argv with
  | [] => throw .emptyArgv
  | first :: _ =>
    let program := Utf8.decodeLossy first
    if argv.any Bytes.hasNul then throw (.nulInArgument program)
    else
      let handle? ← openInput h input
      launch h r program argv handle?

end Runner

end CommandExpr
