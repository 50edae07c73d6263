/-!
# Signals

The named signals of Linux, numbered from 1 to 31. A number above that may end a process too, but
names no signal here.
-/

namespace CommandExpr

/-- A named signal. -/
inductive Signal where
  | hup | int | quit | ill | trap | abrt | bus | fpe
  | kill | usr1 | segv | usr2 | pipe | alrm | term | stkflt
  | chld | cont | stop | tstp | ttin | ttou | urg | xcpu
  | xfsz | vtalrm | prof | winch | io | pwr | sys
  deriving DecidableEq

namespace Signal

/-- Every signal, from number 1 on. -/
def all : List Signal :=
  [.hup, .int, .quit, .ill, .trap, .abrt, .bus, .fpe,
    .kill, .usr1, .segv, .usr2, .pipe, .alrm, .term, .stkflt,
    .chld, .cont, .stop, .tstp, .ttin, .ttou, .urg, .xcpu,
    .xfsz, .vtalrm, .prof, .winch, .io, .pwr, .sys]

/-- The signal with the given number. -/
def ofNumber? (n : Nat) : Option Signal := if n = 0 then none else all[n - 1]?

/-- The number of a signal. -/
def number (s : Signal) : Nat := all.idxOf s + 1

theorem ofNumber?_number (s : Signal) : ofNumber? s.number = some s := by cases s <;> decide

/-- The name without its first three letters. -/
def shortName : Signal → String
  | hup => "HUP"
  | int => "INT"
  | quit => "QUIT"
  | ill => "ILL"
  | trap => "TRAP"
  | abrt => "ABRT"
  | bus => "BUS"
  | fpe => "FPE"
  | kill => "KILL"
  | usr1 => "USR1"
  | segv => "SEGV"
  | usr2 => "USR2"
  | pipe => "PIPE"
  | alrm => "ALRM"
  | term => "TERM"
  | stkflt => "STKFLT"
  | chld => "CHLD"
  | cont => "CONT"
  | stop => "STOP"
  | tstp => "TSTP"
  | ttin => "TTIN"
  | ttou => "TTOU"
  | urg => "URG"
  | xcpu => "XCPU"
  | xfsz => "XFSZ"
  | vtalrm => "VTALRM"
  | prof => "PROF"
  | winch => "WINCH"
  | io => "IO"
  | pwr => "PWR"
  | sys => "SYS"

/-- The name of a signal. -/
def name (s : Signal) : String := "SIG" ++ s.shortName

/-- The signal with the given name. -/
def ofName? (name : String) : Option Signal := all.find? (·.name = name)

end Signal

end CommandExpr
