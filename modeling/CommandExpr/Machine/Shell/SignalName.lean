import CommandExpr.Machine.Utility.Basic
import CommandExpr.Signal

/-!
# Signals as the shell spells them

Signals by number or by name without its first letters, in any case; the end of the shell counts as
number zero. Numbers above the named ones belong to the real-time signals.
-/

namespace CommandExpr.Machine.Shell.SignalName

/-- The first real-time signal. -/
def firstRealTime : Nat := 34

/-- The last signal. -/
def last : Nat := 64

/-- The name of the end of the shell. -/
def exit : String := "EXIT"

/-- The name of a number. -/
def ofNumber (n : Nat) : String :=
  if n = 0 then exit
  else match Signal.ofNumber? n with
    | some s => s.shortName
    | none =>
      if n = firstRealTime then "RTMIN"
      else if n = last then "RTMAX"
      else if firstRealTime < n && n ≤ firstRealTime + 15 then s!"RTMIN+{n - firstRealTime}"
      else if firstRealTime < n && n < last then s!"RTMAX-{last - n}"
      else toString n

/-- The number that a text spells, from `least` on. -/
def number? (least : Nat) (s : Chars) : Option Nat :=
  match Numeral.digits? s with
  | some n => if n ≤ last then some n else none
  | none =>
    ((List.range (last + 1)).drop least).find? fun n =>
      (ofNumber n).toList = s.map Char.toUpper

/-- What is said of a process that a signal ended; nothing for two signals that are common. -/
def description (n : Nat) : Option String :=
  match Signal.ofNumber? n with
  | some s =>
    match s with
    | .hup => "Hangup"
    | .int | .pipe => none
    | .quit => "Quit"
    | .ill => "Illegal instruction"
    | .trap => "Trace/breakpoint trap"
    | .abrt => "Aborted"
    | .bus => "Bus error"
    | .fpe => "Floating point exception"
    | .kill => "Killed"
    | .usr1 => "User defined signal 1"
    | .segv => "Segmentation fault"
    | .usr2 => "User defined signal 2"
    | .alrm => "Alarm clock"
    | .term => "Terminated"
    | .stkflt => "Stack fault"
    | .chld => "Child exited"
    | .cont => "Continued"
    | .stop => "Stopped (signal)"
    | .tstp => "Stopped"
    | .ttin => "Stopped (tty input)"
    | .ttou => "Stopped (tty output)"
    | .urg => "Urgent I/O condition"
    | .xcpu => "CPU time limit exceeded"
    | .xfsz => "File size limit exceeded"
    | .vtalrm => "Virtual timer expired"
    | .prof => "Profiling timer expired"
    | .winch => "Window changed"
    | .io => "I/O possible"
    | .pwr => "Power failure"
    | .sys => "Bad system call"
  | none =>
    if firstRealTime ≤ n then s!"Real-time signal {n - firstRealTime}" else s!"Unknown signal {n}"

end CommandExpr.Machine.Shell.SignalName
