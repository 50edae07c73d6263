import CommandExpr.Host

/-!
# Children

A process that was made has to be waited for exactly once. A child remembers how it ended as soon as
a wait has said so, and from then on asks the host nothing more; a child that is given up before is
killed and waited for.

## Main definitions

* `Child.wait`, `Child.tryWait`, `Child.waitUntil` — wait, look, wait up to a deadline
* `Child.killAndReap` — the end of a child that is given up
* `ChildSet.reapAll` — wait for all children of a set
-/

namespace CommandExpr

/-- A process that has to be waited for. -/
structure Child where
  /-- Its number. -/
  pid : Pid
  /-- The name of its program. -/
  program : String
  /-- How it ended, once a wait has said so. -/
  status : Option Status := none
  deriving DecidableEq

namespace Child

variable {σ : Type}

/-- Has a wait said how the child ended? -/
def isReaped (c : Child) : Bool := c.status.isSome

/-- The child with its end. -/
def ended (c : Child) (status : Status) : Child := { c with status := some status }

/-- Wait for the end of a process, passing over interruptions and other changes of state. -/
def awaitEnd (h : Host σ) (pid : Pid) : Nat → Action σ (Except Errno Status)
  | 0 => return .error .interrupted
  | fuel + 1 => do
    match ← Host.call (h.wait pid false) with
    | .ok report =>
      match report.status? with
      | some status => return .ok status
      | none => awaitEnd h pid fuel
    | .error e => if e = .interrupted then awaitEnd h pid fuel else return .error e

/-- Wait until the child has ended. -/
def wait (h : Host σ) (c : Child) : Action σ (Except Errno Status × Child) := do
  match c.status with
  | some status => return (.ok status, c)
  | none =>
    match ← awaitEnd h c.pid (← h.budget) with
    | .ok status => return (.ok status, c.ended status)
    | .error e => return (.error e, c)

/-- Look whether a process has ended, passing over interruptions. -/
def lookForEnd (h : Host σ) (pid : Pid) : Nat → Action σ (Except Errno (Option Status))
  | 0 => return .error .interrupted
  | fuel + 1 => do
    match ← Host.call (h.wait pid true) with
    | .ok report => return .ok report.status?
    | .error e => if e = .interrupted then lookForEnd h pid fuel else return .error e

/-- Look whether the child has ended. -/
def tryWait (h : Host σ) (c : Child) : Action σ (Except Errno (Option Status) × Child) := do
  if c.isReaped then return (.ok c.status, c)
  else
    match ← lookForEnd h c.pid (← h.budget) with
    | .ok status? => return (.ok status?, { c with status := status? })
    | .error e => return (.error e, c)

/-- Send the child a signal. -/
def kill (h : Host σ) (c : Child) (signal : Signal) : Action σ (Except Failure Unit) := do
  match ← Host.call (h.kill c.pid signal) with
  | .ok () => return .ok ()
  | .error e => return .error (.ofErrno e)

/-- Kill the child and wait for its end; nothing, if a wait has seen its end already. -/
def killAndReap (h : Host σ) (c : Child) : Action σ Child := do
  if c.isReaped then return c
  else
    match ← c.kill h .kill with
    | .ok () => pure ()
    | .error f => h.note (.notKilled c.program c.pid f)
    let (result, c) ← c.wait h
    match result with
    | .ok status => h.note (.reapedAfterKill c.program c.pid status)
    | .error e => h.note (.notReaped c.program c.pid e)
    return c

/-- How long a wait with a deadline sleeps between two looks, in nanoseconds. -/
def pollInterval : Nat := 5 * nanosPerMilli

/-- Look and sleep in turn until the child has ended or the deadline has passed; a child that has
not ended by then is killed and waited for. -/
def pollUntil (h : Host σ) (deadline : Instant) :
    Nat → Child → Action σ (Except Failure Status × Child)
  | 0, c => return (.error .stalled, c)
  | fuel + 1, c => do
    let (result, c) ← c.tryWait h
    match result with
    | .error e => return (.error (.ofErrno e), c)
    | .ok (some status) => return (.ok status, c)
    | .ok none =>
      let left := deadline - (← Host.call h.now)
      if left = 0 then
        let c ← c.killAndReap h
        return (.error (.stillRunning c.program), c)
      else
        Host.change (h.sleep (min left pollInterval))
        pollUntil h deadline fuel c

/-- Wait until the child has ended, at most up to a deadline. -/
def waitUntil (h : Host σ) (deadline : Option Instant) (c : Child) :
    Action σ (Except Failure Status × Child) := do
  match deadline with
  | none =>
    let (result, c) ← c.wait h
    return (result.mapError .ofErrno, c)
  | some deadline => pollUntil h deadline (← h.budget) c

/-- Run a computation that watches the child, and give the child up when it is over. -/
def guarding {α : Type} (h : Host σ) (c : Child)
    (body : Child → Action σ (Except Failure α × Child)) : Action σ (Except Failure α) := do
  let (result, c) ← body c
  let _ ← c.killAndReap h
  return result

end Child

/-- Children in the order in which they were made. -/
abbrev ChildSet := List Child

namespace ChildSet

variable {σ : Type}

/-- Wait for every child whose end no wait has seen, in order. One that is not there to be waited
for ends the round; the ends seen so far are kept. -/
def reapAll (h : Host σ) : ChildSet → Action σ (Except Failure (List Status) × ChildSet)
  | [] => return (.ok [], [])
  | c :: rest => do
    if c.isReaped then
      let (result, rest) ← reapAll h rest
      return (result, c :: rest)
    else
      let (result, c) ← c.wait h
      match result with
      | .ok status =>
        h.note (.reaped c.program c.pid status)
        let (result, rest) ← reapAll h rest
        return (result.map (status :: ·), c :: rest)
      | .error e =>
        if e = .noChild then return (.ok [], c :: rest)
        else return (.error (.ofErrno e), c :: rest)

/-- Give all children up, in order. -/
def dropAll (h : Host σ) (children : ChildSet) : Action σ Unit := do
  for c in children do
    let _ ← c.killAndReap h

end ChildSet

end CommandExpr
