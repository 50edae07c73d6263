import CommandExpr.Machine.Launch
import CommandExpr.Machine.Utility.Listing
import CommandExpr.Machine.Utility.Quantity
import CommandExpr.Machine.Utility.Stream
import CommandExpr.Signal

/-!
# Processes and environments

The utilities that end at once, let time pass, or run another program.

## Main definitions

* `Utility.sleep` — let time pass
* `Utility.env`, `Utility.nice`, `Utility.nohup`, `Utility.stdbuf` — run a program in other
  circumstances
* `Utility.timeout` — run a program for some time
* `Utility.id`, `Utility.whoami`, `Utility.uname`, `Utility.tty` — who runs, and where
-/

namespace CommandExpr.Machine.Utility

/-- End with success. -/
def succeed : Utility := fun _ => return 0

/-- End with failure. -/
def fail : Utility := fun _ => return 1

/-- Nanoseconds in a second. -/
def nanosPerSecond : Nat := 1000000000

/-- The seconds that a suffix stands for. -/
def unitSeconds? : Chars → Option Nat
  | [] | ['s'] => some 1
  | ['m'] => some 60
  | ['h'] => some 3600
  | ['d'] => some 86400
  | _ => none

/-- The nanoseconds that a text tells, none for all time. -/
def interval? (text : Bytes) : Option (Option Nat) :=
  match Quantity.ofFront? (Latin.ofBytes text) with
  | some (.ratio negative num den, rest) =>
    (unitSeconds? rest).bind fun unit =>
      if negative && num ≠ 0 then none
      else some (some ((num * unit * nanosPerSecond + den - 1) / den))
  | some (.infinity false, rest) => (unitSeconds? rest).map fun _ => none
  | _ => none

/-- Longer than anybody waits, in seconds. -/
def forever : Nat := 1000000000000

/-- Let time pass. -/
def sleep : Utility :=
  withUsage {} 1 fun i u => do
    if u.operands.isEmpty then missingOperand i.name
    else
      let mut total := 0
      for text in u.operands do
        match interval? text with
        | some nanoseconds => total := total + nanoseconds.getD (forever * nanosPerSecond)
        | none =>
          complain i.name [Bytes.ofString "invalid time interval ", cited text]
          hint i.name
          return 1
      let _ ← Task.ask (.sleep total)
      return 0

/-- Write the values of variables. -/
def printenv : Utility :=
  withUsage { flags := ['0'], long := [("null", '0')] } 2 fun i u => do
    let stop : UInt8 := if u.has '0' then 0 else Bytes.newline
    if u.operands.isEmpty then emit i.name (unlinesWith stop i.env)
    else
      let found := u.operands.map fun name =>
        (i.env.find? fun s => EnvStrings.nameOf s = name).map EnvStrings.valueOf
      let code ← emit i.name (unlinesWith stop (found.filterMap id))
      return if found.all (·.isSome) then code else 1

/-- Turn into the program of a name; the code, if that fails, with what could not be done. -/
def launched (i : Invocation) (what : String) (env : EnvStrings) (name : Bytes) (args : List Bytes) :
    Task Nat := do
  let e ← Task.launch name (name :: args) env
  complain i.name [Bytes.ofString what, cited name, Bytes.ofString ": ", reason e]
  return if e = .notFound then 127 else 126

/-- What is said before the name of a program that cannot be run. -/
def runFault : String := "failed to run command "

/-- Run a program in a changed environment, or write the environment. -/
def env : Utility :=
  let table : OptionTable :=
    { flags := ['i', '0'], valued := ['u', 'C'], isStrict := true
      long := [("ignore-environment", 'i'), ("unset", 'u'), ("null", '0'), ("chdir", 'C')] }
  withUsage table 125 fun i u => do
    let isAlone := u.operands.head? = some dash
    let operands := if isAlone then u.operands.drop 1 else u.operands
    let start : EnvStrings := if u.has 'i' || isAlone then [] else i.env
    let dropped := (u.options.filter (·.1 = 'u')).map (·.2)
    let kept := dropped.foldl EnvStrings.erase start
    let settings := operands.takeWhile (·.contains EnvStrings.equals)
    let env := settings.foldl EnvStrings.put kept
    let refuse (message : String) : Task Nat := do
      complain i.name [Bytes.ofString message]
      hint i.name
      return 125
    match operands.drop settings.length with
    | [] =>
      if (u.value? 'C').isSome then
        return ← refuse "must specify command with --chdir (-C)"
      emit i.name (unlinesWith (if u.has '0' then 0 else Bytes.newline) env)
    | name :: args =>
      if u.has '0' then return ← refuse "cannot specify --null (-0) with command"
      if let some directory := u.value? 'C' then
        if let .error e ← Task.attempt (.changeDirectory directory) then
          complain i.name [Bytes.ofString "cannot change directory to ", quoted directory,
            Bytes.ofString ": ", reason e]
          return 125
      let code ← launched i "" env name args
      if code = 127 && name.any fun b => b = 32 || (9 ≤ b && b ≤ 13) then
        complain i.name [Bytes.ofString "use -[v]S to pass options in shebang lines"]
      return code

/-! ## Other circumstances -/

/-- Run the program of the operands. -/
def launchOperands (what : String) (misuse : Nat) (i : Invocation) (u : Usage) : Task Nat := do
  match u.operands with
  | name :: args => launched i what i.env name args
  | [] =>
    complain i.name [Bytes.ofString "missing operand"]
    hint i.name
    return misuse

/-- Run a program with other urgency; here all programs have the same. -/
def nice : Utility := fun i => do
  let args := i.args.map fun a =>
    match Latin.ofBytes a with
    | '-' :: c :: cs =>
      if isDigit c || c = '-' && (cs.head?).any isDigit then
        Bytes.ofString "-n" ++ Latin.toBytes (c :: cs)
      else a
    | _ => a
  let table : OptionTable := { valued := ['n'], long := [("adjustment", 'n')], isStrict := true }
  let run := withUsage table 125 fun i u => do
    if u.operands.isEmpty then emit i.name (Bytes.ofString "0\n") else launchOperands "" 125 i u
  run { i with args }

/-- Run a program with other buffers; here nothing depends on them. -/
def stdbuf : Utility :=
  let table : OptionTable :=
    { valued := "ioe".toList, isStrict := true
      long := [("input", 'i'), ("output", 'o'), ("error", 'e')] }
  withUsage table 125 (launchOperands runFault 125)

/-- Run a program that goes on when the session ends. -/
def nohup : Utility :=
  withUsage { isStrict := true } 125 fun i u => do
    let _ ← Task.ask (.setSignal 1 .ignored)
    launchOperands runFault 125 i u

/-! ## Time limits -/

/-- The number of a signal by its name, with or without the common start, or by itself. -/
def signalNumber? (text : Bytes) : Option Nat :=
  let s := String.ofList (Latin.ofBytes text)
  match Numeral.digits? s.toList with
  | some n => some n
  | none =>
    let name := (if s.startsWith "SIG" then s else "SIG" ++ s)
    (Signal.ofName? name).map Signal.number

/-- Wait for a child; how it ended. The fuel bounds how often a signal comes in between. -/
def awaitChild (pid : Nat) : Nat → Task (Option Ending)
  | 0 => return none
  | fuel + 1 => do
    match ← Task.ask (.wait (some pid) false) with
    | .ended _ ending => return some ending
    | .error e => if e = .interrupted then awaitChild pid fuel else return none
    | _ => return none

/-- How a time limit is enforced. -/
structure Limit where
  /-- How long a program may take, in nanoseconds. -/
  nanoseconds : Nat
  /-- The signal that it gets then. -/
  signal : Nat
  /-- How much later it gets a signal that it cannot ignore, if at all. -/
  later? : Option Nat
  /-- Does it get the signal alone, and not what it started? -/
  isAlone : Bool
  /-- Does the code tell how the program ended even if it took too long? -/
  isPreserved : Bool

/-- The code of a program that took too long. -/
def overtimeCode : Nat := 124

/-- Send a signal to a program and what it started, and let them go on if they were stopped. -/
def Limit.strike (l : Limit) (child signal : Nat) : Task Unit := do
  let signals := if signal = Signal.kill.number then [signal] else [signal, Signal.cont.number]
  for n in signals do
    let _ ← Task.ask (if l.isAlone then .kill child n else .killGroup n)

/-- Keep the time of a program: tell on a descriptor when it is over, and strike. -/
def Limit.keeper (l : Limit) (child sink : Nat) : Task Nat := do
  let _ ← Task.ask (.sleep l.nanoseconds)
  let _ ← Task.write sink [1]
  l.strike child l.signal
  if let some more := l.later? then
    let _ ← Task.ask (.sleep more)
    l.strike child Signal.kill.number
  return 0

/-- The code after the end of a program, which took too long or not. A signal that ended it early
ends this process, too. -/
def Limit.code (l : Limit) (isOver : Bool) : Ending → Task Nat
  | .code n => return if isOver && !l.isPreserved then overtimeCode else n
  | .signal n => do
    if isOver && !l.isPreserved && n ≠ Signal.kill.number then return overtimeCode
    if !isOver then
      let _ ← Task.ask (.setSignal n .default)
      if let .number self ← Task.ask .self then
        let _ ← Task.ask (.kill self n)
    return 128 + n

/-- Run a task as a process for a limited time; a second process keeps the time. -/
def Limit.run (l : Limit) (body : Task Nat) : Task Nat := do
  if !l.isAlone then
    let _ ← Task.ask .leadGroup
  let child ← Task.fork body.toProgram
  match ← Task.ask .pipe with
  | .pair source sink =>
    let keeper ← Task.fork (l.keeper child sink).toProgram
    let _ ← Task.attempt (.close sink)
    let _ ← Task.ask (.setSignal l.signal .ignored)
    let ending ← awaitChild child Task.rounds
    let _ ← Task.ask (.kill keeper Signal.kill.number)
    let _ ← awaitChild keeper Task.rounds
    let told ← Task.read source 1
    l.code (!(told.toOption.getD []).isEmpty) (ending.getD (.code 0))
  | _ => return 125

/-- Run a program, and end it and what it started if it takes too long. -/
def timeout : Utility :=
  let table : OptionTable :=
    { flags := ['v'], valued := "sk".toList, isStrict := true
      long := [("signal", 's'), ("kill-after", 'k'), ("preserve-status", 'p'), ("foreground", 'f'),
        ("verbose", 'v')] }
  withUsage table 125 fun i u => do
    let fault (parts : List Bytes) : Task Nat := do
      complain i.name parts
      hint i.name
      return 125
    let time? (text : Bytes) : Option Nat :=
      (interval? text).map fun t => t.getD (forever * nanosPerSecond)
    match u.operands with
    | limit :: name :: args =>
      let later := (u.value? 'k').map fun text => (text, time? text)
      let signal := (u.value? 's').map fun text => (text, signalNumber? text)
      match time? limit, later, signal with
      | none, _, _ => fault [Bytes.ofString "invalid time interval ", cited limit]
      | _, some (text, none), _ => fault [Bytes.ofString "invalid time interval ", cited text]
      | _, _, some (text, none) => fault [cited text, Bytes.ofString ": invalid signal"]
      | some nanoseconds, later, signal =>
        let l : Limit :=
          { nanoseconds := if nanoseconds = 0 then forever * nanosPerSecond else nanoseconds
            signal := (signal.bind (·.2)).getD Signal.term.number
            later? := later.bind (·.2), isAlone := u.has 'f', isPreserved := u.has 'p' }
        l.run (launched i runFault i.env name args)
    | _ => do
      hint i.name
      return 125

/-! ## Who and where -/

/-- Write a line. -/
def tell (i : Invocation) (text : String) : Task Nat := emit i.name (Bytes.ofString (text ++ "\n"))

/-- Write who runs the program. -/
def whoami : Utility :=
  withUsage {} 1 fun i u =>
    match u.operands with
    | [] => tell i ownerName
    | extra :: _ => extraOperand i.name extra

/-- Write the numbers or names of the user and of the groups. -/
def id : Utility :=
  let table : OptionTable :=
    { flags := "ugGnrz".toList
      long := [("user", 'u'), ("group", 'g'), ("groups", 'G'), ("name", 'n'), ("real", 'r')] }
  withUsage table 1 fun i u =>
    match u.operands.find? (· ≠ Bytes.ofString ownerName) with
    | some name => do
      complain i.name [cited name, Bytes.ofString ": no such user"]
      return 1
    | none =>
      if "ugG".toList.any u.has then tell i (if u.has 'n' then ownerName else "0")
      else
        let shown := s!"0({ownerName})"
        tell i s!"uid={shown} gid={shown} groups={shown}"

/-- Write what system the machine runs. -/
def uname : Utility :=
  withUsage { flags := "asnrvmpio".toList } 1 fun i u => do
    let parts := [('s', "Linux"), ('n', "localhost"), ('m', "x86_64"), ('o', "GNU/Linux")]
    let wanted := parts.filter fun (c, _) => u.has c || u.has 'a'
    let shown := if wanted.isEmpty then parts.take 1 else wanted
    tell i (" ".intercalate (shown.map (·.2)))

/-- Say that the standard input is no terminal. -/
def tty : Utility :=
  withUsage { flags := ['s'], long := [("silent", 's'), ("quiet", 's')] } 2 fun i u => do
    if !u.has 's' then
      let _ ← tell i "not a tty"
    return 1

/-- The prime factors of a number, from a divisor on; the fuel bounds the divisions. -/
def primeFactors : Nat → Nat → Nat → List Nat
  | 0, _, n => [n]
  | fuel + 1, d, n =>
    if n < 2 then []
    else if n < d * d then [n]
    else if n % d = 0 then d :: primeFactors fuel d (n / d)
    else primeFactors fuel (if d = 2 then 3 else d + 2) n

/-- Write the prime factors of numbers. -/
def factor : Utility :=
  withUsage {} 1 fun i u => do
    let texts ← if u.operands.isEmpty then do
        let (bytes, _) ← readInputs i.name []
        let isBlank (b : UInt8) : Bool := b = 32 || b = 9 || b = Bytes.newline
        let spaced := bytes.map fun b => if isBlank b then 32 else b
        pure ((Bytes.splitOn 32 spaced).filter (· ≠ []))
      else pure u.operands
    let mut code := 0
    for text in texts do
      let digits := (Latin.ofBytes text).dropWhile fun c => c = ' ' || c = '+'
      match Numeral.digits? digits with
      | some n =>
        let factors := (primeFactors Task.rounds 2 n).map fun p => s!" {p}"
        code := max code (← tell i (s!"{n}:" ++ "".intercalate factors))
      | none =>
        complain i.name [cited text, Bytes.ofString " is not a valid positive integer"]
        code := 1
    return code

end CommandExpr.Machine.Utility
