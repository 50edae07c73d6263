import CommandExpr.Signal

/-!
# How a program ended

A wait reports changes of state of a child; only some of them are an end.

## Main definitions

* `Status` — how a program ended
* `WaitReport` — what a wait may report
* `WaitReport.status?` — the end that a report tells of, if it tells of one
-/

namespace CommandExpr

/-- How a program ended. -/
inductive Status where
  /-- It returned a code. -/
  | exited (code : Int)
  /-- A signal ended it. -/
  | signaled (signal : Signal)
  deriving DecidableEq

namespace Status

/-- Did the program return zero? -/
def isSuccess (s : Status) : Bool := s = exited 0

/-- The code that the program returned. -/
def code? : Status → Option Int
  | exited code => some code
  | signaled _ => none

/-- The words for an end. -/
def display : Status → String
  | exited 0 => "done"
  | exited code => s!"failed: {code}"
  | signaled signal => s!"signaled: {signal.name}"

end Status

/-- What a wait may report about a child. -/
inductive WaitReport where
  /-- It returned a code. -/
  | exited (code : Int)
  /-- A signal ended it, with or without leaving a memory image. -/
  | signaled (signal : Signal) (core : Bool)
  /-- A signal stopped it. -/
  | stopped (signal : Signal)
  /-- It goes on after a stop. -/
  | continued
  /-- Nothing has changed. -/
  | stillAlive
  deriving DecidableEq

/-- The end that a report tells of. -/
def WaitReport.status? : WaitReport → Option Status
  | exited code => some (.exited code)
  | signaled signal _ => some (.signaled signal)
  | _ => none

end CommandExpr
