import CommandExpr.Failure
import CommandExpr.Level
import CommandExpr.Options
import CommandExpr.Status

/-!
# Notices

What the library logs, as data: each event has one constructor, its level and its wording. How a
process number and a span of time are written is left to the reader of the log.

## Main definitions

* `Notice` — the events
* `Notice.level`, `Notice.body` — level and wording
* `Notice.lines` — the lines of the log
* `Message` — a notice, or a line for the user
-/

namespace CommandExpr

/-- The number of a process. -/
abbrev Pid := Nat

/-- An event worth logging. -/
inductive Notice where
  /-- The command line was read. -/
  | options (o : Options)
  /-- A numeric variable was passed over. -/
  | unusableVariable (name raw : String)
  /-- A command's argument vector was built. -/
  | argv (arguments : List Bytes)
  /-- A program's process was made. -/
  | spawned (program : String) (pid : Pid)
  /-- The process could not turn into the program. -/
  | notStarted (program : String) (errno : Errno) (status : Status)
  /-- The stage goes on without the program that could not be started. -/
  | skipped (failure : Failure)
  /-- The program wrote more than is kept. -/
  | truncated (program : String) (cap : Nat)
  /-- The program ended. -/
  | ended (program : String) (status : Status) (captured : Nat)
  /-- A child was waited for. -/
  | reaped (program : String) (pid : Pid) (status : Status)
  /-- A child was killed and waited for. -/
  | reapedAfterKill (program : String) (pid : Pid) (status : Status)
  /-- A child could not be killed. -/
  | notKilled (program : String) (pid : Pid) (failure : Failure)
  /-- A child could not be waited for. -/
  | notReaped (program : String) (pid : Pid) (errno : Errno)
  /-- A relay name is in use. -/
  | relayTaken (path : String)
  /-- A relay file was made. -/
  | relayCreated (path : String)
  /-- Bytes went into a relay file. -/
  | relayWritten (path : String) (count : Nat)
  /-- A relay file is the input of a command. -/
  | relayFeeds (path program : String)
  /-- A relay file was removed after its use. -/
  | relayReleased (path : String)
  /-- A relay file was removed without a use. -/
  | relayDropped (path : String)
  /-- A relay file could not be removed when it was dropped. -/
  | relayLeft (path : String) (error : IoError)
  /-- An expression was evaluated, in so many nanoseconds. -/
  | evaluated (expression : String) (nanoseconds : Nat)
  deriving DecidableEq

namespace Notice

/-- How volatile parts of a notice are written. -/
structure Wording where
  /-- A process number. -/
  pid : Pid → String
  /-- A span of time in nanoseconds. -/
  time : Nat → String

/-- The level of a notice. -/
def level : Notice → Level
  | options _ | spawned .. | notStarted .. | truncated .. | ended .. | reaped ..
  | reapedAfterKill .. | relayTaken _ => .debug
  | unusableVariable .. | skipped _ | notKilled .. | notReaped .. | relayLeft .. => .warn
  | argv _ | relayCreated _ | relayWritten .. | relayFeeds .. | relayReleased _
  | relayDropped _ => .trace
  | evaluated .. => .info

/-- A listing after the name of what is listed. -/
def labelled (name : String) : List String → List String
  | [] => []
  | first :: rest => s!"{name} = {first}" :: rest

/-- The wording of a notice; listings take several lines. -/
def body (w : Wording) : Notice → List String
  | options o => labelled "args" o.listing
  | unusableVariable name raw => [s!"ignoring {name}: could not parse '{raw}'"]
  | argv arguments => labelled "argv" (Listing.list (arguments.map Quoted.bytes))
  | spawned program pid => [s!"spawned {program} as {w.pid pid}"]
  | notStarted program errno status =>
    [s!"{program} failed to exec ({errno.display}), child {status.display}"]
  | skipped failure => [failure.message]
  | truncated program cap => [s!"{program} wrote more than {cap} bytes, output truncated"]
  | ended program status captured =>
    [s!"{program} exited: {status.display}, {captured} bytes captured"]
  | reaped program pid status => [s!"reaped {program} ({w.pid pid}): {status.display}"]
  | reapedAfterKill program pid status =>
    [s!"reaped {program} ({w.pid pid}) after kill: {status.display}"]
  | notKilled program pid failure =>
    [s!"failed to kill {program} ({w.pid pid}): {failure.message}"]
  | notReaped program pid errno =>
    [s!"failed to reap {program} ({w.pid pid}): {errno.display}"]
  | relayTaken path => [s!"relay name {path} is taken, trying the next one"]
  | relayCreated path => [s!"created relay {path}"]
  | relayWritten path count => [s!"wrote {count} bytes to relay {path}"]
  | relayFeeds path program => [s!"relay {path} feeds {program}"]
  | relayReleased path => [s!"released relay {path}"]
  | relayDropped path => [s!"dropped relay {path}"]
  | relayLeft path error => [s!"failed to clean up relay {path}: {error.text}"]
  | evaluated expression nanoseconds =>
    [s!"evaluated {expression} in {w.time nanoseconds}"]

/-- The lines of a notice in the log: its level, then its wording. -/
def lines (w : Wording) (n : Notice) : List String :=
  match n.body w with
  | [] => []
  | first :: rest => s!"[{n.level.display}] {first}" :: rest

end Notice

/-- What is written to the standard error output. -/
inductive Message where
  /-- An event, shown if the threshold lets it through. -/
  | notice (n : Notice)
  /-- A line for the user, shown always. -/
  | line (text : String)
  deriving DecidableEq

/-- The lines of a message under a threshold. -/
def Message.lines (threshold : Level) (w : Notice.Wording) : Message → List String
  | .notice n => if n.level.isShown threshold then n.lines w else []
  | .line text => [text]

end CommandExpr
