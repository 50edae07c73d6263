import CommandExpr.Machine.Shell.Builtin
import CommandExpr.Machine.Shell.Grammar
import CommandExpr.Machine.Shell.Redirection

/-!
# Running commands

Commands run in the shell itself, in a process that splits off from it, or in its place: a command
that is the last thing the shell does takes its place, unless traps are set.

## Main definitions

* `run` — a script
* `Shell.program` — the shell as a program
-/

namespace CommandExpr.Machine.Shell

/-- How deep commands are run within each other, rounds of loops included. -/
def deepestRun : Nat := 1000000000

/-- The code of an end. -/
def codeOf : Ending → Nat
  | .code n => n
  | .signal n => 128 + n

/-- Wait for a process; how it ended. The fuel bounds how often a signal comes in between. -/
def waitFor (pid : Nat) : Nat → Task (Option Ending)
  | 0 => return none
  | fuel + 1 => do
    match ← Task.ask (.wait (some pid) false) with
    | .ended _ ending => return some ending
    | .error e => if e = .interrupted then waitFor pid fuel else return none
    | _ => return none

/-- Say what ended a process, if it was a signal that is worth it. -/
def announce (ending : Ending) : Run Unit := do
  if let .signal n := ending then
    if let some text := SignalName.description n then
      (Task.warn (text ++ "\n") : Task Unit)

/-- Wait for a process in the foreground; its code. What ended it is said. -/
def awaitForeground (pid : Nat) : Run Nat := do
  match ← (waitFor pid Task.rounds : Task (Option Ending)) with
  | none => return 127
  | some ending =>
    announce ending
    return codeOf ending

/-- The state of a shell that splits off: it does not catch signals any more. It stays in the loops
and the tests that are under way. -/
def split (s : Shell) : Shell := { s with traps := s.traps.filter fun (_, a) => a.isEmpty }

/-- Leave the tests that are under way. -/
def untested : Run Unit := modify fun s => { s with tests := 0 }

/-- Let caught signals do what they do by themselves. -/
def dropTraps (s : Shell) : Run Unit := do
  for (n, a) in s.traps do
    if n ≠ 0 && !a.isEmpty then
      let _ ← (Task.ask (.setSignal n .default) : Task Reply)

/-- Are there traps? -/
def hasTraps (s : Shell) : Bool := s.traps.any fun (_, a) => !a.isEmpty

/-- The errors that say that a file is missing. -/
def isMissing (e : Errno) : Bool := e = .notFound || e = .notDirectory

/-- What is said of a program that cannot be started. -/
def startFault (name : Chars) (e : Errno) : Chars :=
  name ++ ": ".toList ++ (if isMissing e then "not found" else e.row.message).toList

/-- The program of a name in one of the directories; why there is none, if there is none. -/
def searchIn (name : Chars) : Errno → List Chars → Task (Except Errno Chars)
  | e, [] => return .error e
  | e, dir :: rest => do
    let path := if dir.isEmpty then name else dir ++ '/' :: name
    match ← Task.info (Latin.toBytes path) true with
    | .error e' => searchIn name (if isMissing e' then e else e') rest
    | .ok i =>
      if i.node.isDirectory || !i.node.allows 1 then
        searchIn name .accessDenied rest
      else return .ok path

/-- The file of a name in one of the directories. -/
def readableIn (name : Chars) : List Chars → Task (Except Errno Chars)
  | [] => return .error .notFound
  | dir :: rest => do
    let path := if dir.isEmpty then name else dir ++ '/' :: name
    match ← Task.info (Latin.toBytes path) true with
    | .ok ⟨.file .., _, _⟩ => return .ok path
    | _ => readableIn name rest

/-- The directories in which programs are looked for. -/
def searchPath (s : Shell) : List Chars :=
  match s.value? "PATH".toList with
  | some path => path.splitOn ':'
  | none => []

/-- The text of a script, in which zero bytes count for nothing. -/
def textOf (bytes : Bytes) : Chars := Latin.ofBytes (bytes.filter (· ≠ 0))

/-- The text of the script in a file, empty if the file can be opened but not read; the error
otherwise. -/
def textAt (path : Chars) : Task (Except Errno Chars) := do
  match ← Task.open (Latin.toBytes path) { isReadable := true } with
  | .error e => return .error e
  | .ok fd =>
    let bytes ← Task.readAll fd
    let _ ← Task.attempt (.close fd)
    return .ok (textOf (bytes.toOption.getD []))

/-- How many bytes of a file tell whether it is a script. -/
def scriptHeadLength : Nat := 128

/-- Does a byte never stand in the first line of a script? -/
def isControl (b : UInt8) : Bool := b < 9 || (16 ≤ b && b < 32 && b ≠ 27) || b = 127

/-- Can a file be a script, by its first bytes? -/
def isScript (head : Bytes) : Bool :=
  !((head.take scriptHeadLength).takeWhile (· ≠ Bytes.newline)).any isControl

/-- Turn into the program of a path; a script without an interpreter goes to a new shell. The error,
if it fails. -/
def execFile (path : Bytes) (argv : List Bytes) (env : EnvStrings) : Task Errno := do
  match ← Task.attempt (.exec path argv env) with
  | .error .execFormat =>
    match ← Utility.readInput path with
    | .ok bytes => if isScript bytes then Task.execPath path argv env else return .execFormat
    | .error e => return e
  | .error e => return e
  | .ok () => return .notFound

/-- Turn into a program; what is said if that fails, and the code. -/
def become (name : Chars) (args : List Chars) : Run (Chars × Nat) := do
  let s ← get
  let argv := (name :: args).map Latin.toBytes
  let found ← if name.contains '/' then pure (.ok name)
    else (searchIn name .notFound (searchPath s) : Task (Except Errno Chars))
  match found with
  | .error e => return (startFault name e, 127)
  | .ok path =>
    let e ← (execFile (Latin.toBytes path) argv s.environment : Task Errno)
    let isLost := isMissing e || e = .linkLoop || e = .nameTooLong
    return (startFault name e, if isLost then 127 else 126)

/-- Join words with blanks. -/
def joined (ws : List Chars) : Chars := (ws.intersperse [' ']).flatten

/-- Say what is run, if that is asked for. -/
def traced (assigned : List (Chars × Chars)) (ws : List Chars) : Run Unit := do
  if (← get).hasFlag 'x' then
    let shown := assigned.map fun (n, value) => n ++ '=' :: value
    (Task.warnLine [Latin.toBytes ("+ ".toList ++ joined (shown ++ ws))] : Task Unit)

/-- Set variables, each to a word that may speak of the ones before; then say what is run. -/
def assignAll (out : Outputs) (isExported : Bool) (assignments : List (Chars × Word))
    (ws : List Chars) : Run Unit := do
  let mut assigned : List (Chars × Chars) := []
  for (n, w) in assignments do
    let value ← single out w
    assign n value
    if isExported then
      modify fun s => s.withVariable n { value := some value, isExported := true }
    assigned := assigned ++ [(n, value)]
  traced assigned ws

/-- Put variables back to what they were. -/
def restoring (saved : List (Chars × Option Variable)) : Run Unit :=
  modify fun s => saved.foldl (fun s (n, v) =>
    match v with
    | some v => if n = flagsName then { s with flags := v.value.getD [] } else s.withVariable n v
    | none => s.withoutVariable n) s

/-- Run a computation with variables set for the programs that it starts, and put them back. -/
def withAssignments (out : Outputs) (assignments : List (Chars × Word)) (ws : List Chars)
    (body : Run Unit) : Run Unit := do
  let s ← get
  let saved := assignments.map fun (n, _) => (n, s.binding? n)
  let whole : Run Unit := do
    assignAll out true assignments ws
    body
  tryCatch whole fun flow => do
    restoring saved
    throw flow
  restoring saved

/-- Run a computation as a test, in which failure does no harm. -/
def testing (body : Run Unit) : Run Unit := do
  modify fun s => { s with tests := s.tests + 1 }
  let leave : Run Unit := modify fun s => { s with tests := s.tests - 1 }
  tryCatch body fun flow => do
    leave
    throw flow
  leave

/-- The code of a computation; that of misuse if it comes to a fault, which does no further harm. -/
def enduring (body : Run Nat) : Run Nat :=
  tryCatch body fun flow => do
    match flow with
    | .fault => return misuse
    | flow => throw flow

/-- Run a round of a loop, which tells whether the loop goes on. -/
def inLoop (round : Run Bool) : Run Bool := do
  let leave : Run Unit := modify fun s => { s with loops := s.loops - 1 }
  modify fun s => { s with loops := s.loops + 1 }
  let whole : Run Bool := do
    let goesOn ← round
    leave
    return goesOn
  tryCatch whole fun flow => do
    leave
    setStatus 0
    match flow with
    | .leave n => if n ≤ 1 then return false else throw (.leave (n - 1))
    | .next n => if n ≤ 1 then return true else throw (.next (n - 1))
    | flow => throw flow

/-- End the shell if a command failed and that ends it. -/
def checked : Run Unit := do
  let s ← get
  if s.status ≠ 0 && s.tests = 0 && s.hasFlag 'e' then throw (.exit s.status)

/-- Drop the line ends at the end of a text. -/
def withoutLineEnds (s : Chars) : Chars := (s.reverse.dropWhile (· = '\n')).reverse

/-- The commands that are built in and run other ones, or wait for them. -/
def runners : List String := [".", "eval", "exec", "command", "wait", "type", "hash"]

/-- Does a name mean a command that is built in? -/
def isBuiltin (name : Chars) : Bool :=
  (Builtin.find? name).isSome || runners.any (·.toList = name)

/-- Split off a process that runs a computation; `finish` is what is done at its end. -/
def splitOff (finish : Shell → Except Flow Unit → Task Nat) (body : Run Unit) : Run Nat := do
  modify fun s => { s with finished := s.finished.drop 1 }
  let s ← get
  let program := toProgram (split s) (do dropTraps s; body) finish
  (Task.fork program : Task Nat)

/-- Let a process that is not waited for ignore what is typed, and read nothing. -/
def detach : Run Unit := do
  let detached : Task Unit := do
    let _ ← Task.ask (.setSignal Signal.int.number .ignored)
    let _ ← Task.ask (.setSignal Signal.quit.number .ignored)
    let _ ← Task.attempt (.close 0)
    let _ ← Task.open (Bytes.ofString "/dev/null") { isReadable := true }
  detached

/-- What a name means to the shell, in words; none for nothing. -/
def meaningOf (isShort : Bool) (name : Chars) : Run (Option Chars) := do
  let s ← get
  let words (text : String) : Option Chars :=
    some (if isShort then name else name ++ text.toList)
  if Grammar.reserved.any (·.toList = name) then return words " is a shell keyword"
  else if s.functions.any fun (f, _) => f = name then return words " is a shell function"
  else if isBuiltin name then
    return words (if Builtin.isSpecial name then " is a special shell builtin"
      else " is a shell builtin")
  else
    let paths :=
      if name.contains '/' then [name] else (searchPath s).map fun dir => dir ++ '/' :: name
    for path in paths do
      let isFound ← (Condition.unaryHolds (.may 1) (Latin.toBytes path) : Task Bool)
      let isDirectory ← (Utility.isDirectoryAt (Latin.toBytes path) : Task Bool)
      if isFound && !isDirectory then
        return some (if isShort then path else name ++ " is ".toList ++ path)
    return none

/-- Wait for all processes that the shell started: their codes, and whether a signal cut the wait
short. The fuel bounds their number. -/
def waitForAll : Nat → Task (List (Nat × Nat) × Bool)
  | 0 => return ([], false)
  | fuel + 1 => do
    match ← Task.ask (.wait none false) with
    | .ended pid ending =>
      let (found, isCut) ← waitForAll fuel
      return ((pid, codeOf ending) :: found, isCut)
    | .error e => return ([], e = .interrupted)
    | _ => return ([], false)

/-- Take note of the signals that came in; each counts once. -/
def collectSignals : Run Unit := do
  if let .signals arrived ← (Task.ask .takeSignals : Task Reply) then
    modify fun s => { s with arrived := s.arrived.filter (!arrived.contains ·) ++ arrived }

/-- The code of a wait that a signal cut short. -/
def interruptedCode : Run Nat := do
  collectSignals
  return 128 + ((← get).arrived.getLast?.getD 0)

/-! ## Running -/

mutual

/-- Run the lines of a script, whose last line has the given number. -/
def lines (last : Nat) (isLast : Bool) : Nat → List Token → Run Unit
  | 0, _ => throw (.exit misuse)
  | fuel + 1, tokens => do
    match ((Grammar.line last).run (← get).aliases).run tokens with
    | .error fault =>
      modify fun s => { s with line := fault.line }
      abort ("Syntax error: ".toList ++ fault.message.toList)
    | .ok (none, _) => return ()
    | .ok (some c, rest) =>
      command fuel (isLast && (Grammar.afterLines rest).isEmpty) c
      lines last isLast fuel rest

/-- Run a script. -/
def script (isLast : Bool) : Nat → Chars → Run Unit
  | 0, _ => throw (.exit misuse)
  | fuel + 1, text => do
    let tokens := Token.ofScript text
    lines (Grammar.lastLine tokens) isLast fuel tokens

/-- What is done at the end of a shell; its code. -/
def ended : Nat → Shell → Except Flow Unit → Task Nat
  | 0, _, _ => return misuse
  | fuel + 1, s, result => do
    let code := match result with
      | .error (.exit n) | .error (.give n) => n
      | .error .fault => misuse
      | .error (.leave _) | .error (.next _) => 0
      | .ok () => s.status
    match s.traps.lookup 0 with
    | none | some [] => return code
    | some action =>
      let s :=
        { s with traps := s.traps.filter fun (n, _) => n ≠ 0, status := code, context := none }
      let (result, _) ← (script false fuel action).run s
      return match result with
        | .error (.exit n) => n
        | .error .fault => misuse
        | _ => code

/-- The output of a script. -/
def output : Nat → Chars → Run Chars
  | 0, _ => throw (.exit misuse)
  | fuel + 1, text => do
    match ← (Task.ask .pipe : Task Reply) with
    | .pair source sink =>
      let pid ← splitOff (ended fuel) do
        let _ ← (Task.attempt (.close source) : Task (Except Errno Unit))
        (Redirection.moveTo sink 1 : Task Unit)
        untested
        script true fuel text
      let _ ← (Task.attempt (.close sink) : Task (Except Errno Unit))
      let bytes ← (Task.readAll source : Task (Except Errno Bytes))
      let _ ← (Task.attempt (.close source) : Task (Except Errno Unit))
      let code ← awaitForeground pid
      modify fun s => { s with outputStatus := some code }
      return withoutLineEnds ((Latin.ofBytes (bytes.toOption.getD [])).filter (· ≠ '\x00'))
    | _ => return []

/-- Do what is to be done at the signals that came in, in the order of their numbers. -/
def pending : Nat → Run Unit
  | 0 => return ()
  | fuel + 1 => do
    let s ← get
    if s.traps.any fun (n, a) => n ≠ 0 && !a.isEmpty then
      collectSignals
      let arrived := (← get).arrived
      modify fun s => { s with arrived := [] }
      for n in arrived.mergeSort (· ≤ ·) do
        if let some action := (← get).traps.lookup n then
          script false fuel action
          setStatus s.status

/-- Run a command; nothing comes after one that is the last. -/
def command : Nat → Bool → Command → Run Unit
  | 0, _, _ => throw (.exit misuse)
  | fuel + 1, isLast, c => do
    if (← get).hasFlag 'n' then return ()
    match c with
    | .simple line assignments words redirects =>
      simple fuel isLast line assignments words redirects
      pending fuel
      checked
    | .pipeline isNegated commands =>
      let run : Run Unit := do
        match commands with
        | [c] => command fuel false c
        | _ =>
          let pids ← feed fuel none commands
          for pid in pids do
            setStatus (← awaitForeground pid)
      if isNegated then
        testing run
        modify fun s => { s with status := if s.status = 0 then 1 else 0 }
      else
        run
        pending fuel
        checked
    | .both first second =>
      testing (command fuel false first)
      if (← get).status = 0 then command fuel isLast second
    | .either first second =>
      testing (command fuel false first)
      if (← get).status ≠ 0 then command fuel isLast second
    | .sequence first second =>
      command fuel false first
      command fuel isLast second
    | .background c =>
      let pid ← splitOff (ended fuel) do
        detach
        untested
        command fuel true c
      modify fun s => { s with lastBackground := some pid, status := 0 }
    | .subshell c => apart fuel isLast [] c
    | .cond test yes no =>
      testing (command fuel false test)
      if (← get).status = 0 then command fuel isLast yes
      else match no with
        | some c => command fuel isLast c
        | none => setStatus 0
    | .loop isUntil test body => loop isUntil test body fuel 0
    | .each name words body =>
      let values ← match words with
        | some ws => fields (output fuel) ws
        | none => pure (← get).args
      if values.isEmpty then setStatus 0
      each name body fuel values
    | .choose word branches =>
      let text ← single (output fuel) word
      choose text isLast fuel branches
    | .define name body =>
      modify fun s =>
        let others := s.functions.filter fun (n, _) => n ≠ name
        { s with functions := (name, body) :: others, status := 0 }
    | .redirected line (.subshell c) redirects =>
      modify fun s => { s with line }
      apart fuel isLast redirects c
    | .redirected line c redirects =>
      modify fun s => { s with line }
      match ← Redirection.push (output fuel) true [] redirects with
      | none =>
        setStatus misuse
        checked
      | some saved =>
        tryCatch (command fuel isLast c) fun flow => do
          (Redirection.pop saved : Task Unit)
          throw flow
        (Redirection.pop saved : Task Unit)

/-- Run a command in a process of its own, or in the place of the shell, with redirections. -/
def apart : Nat → Bool → List Redirect → Command → Run Unit
  | 0, _, _, _ => throw (.exit misuse)
  | fuel + 1, isLast, redirects, c => do
    let body : Run Unit := do
      match ← Redirection.push (output fuel) false [] redirects with
      | none => throw (.exit misuse)
      | some _ => command fuel true c
    if isLast && !hasTraps (← get) then body
    else
      let pid ← splitOff (ended fuel) body
      setStatus (← awaitForeground pid)
      pending fuel
      checked

/-- Start commands whose outputs feed each other, the first one reading a pipe that is open already;
the numbers of their processes. -/
def feed : Nat → Option Nat → List Command → Run (List Nat)
  | 0, _, _ => throw (.exit misuse)
  | _ + 1, _, [] => return []
  | fuel + 1, source, c :: rest => do
    let next ← if rest.isEmpty then pure none else do
      match ← (Task.ask .pipe : Task Reply) with
      | .pair source sink => pure (some (source, sink))
      | _ => pure none
    let pid ← splitOff (ended fuel) do
      if let some fd := source then (Redirection.moveTo fd 0 : Task Unit)
      if let some (further, sink) := next then
        let _ ← (Task.attempt (.close further) : Task (Except Errno Unit))
        (Redirection.moveTo sink 1 : Task Unit)
      command fuel true c
    if let some fd := source then
      let _ ← (Task.attempt (.close fd) : Task (Except Errno Unit))
    if let some (_, sink) := next then
      let _ ← (Task.attempt (.close sink) : Task (Except Errno Unit))
    return pid :: (← feed fuel (next.map (·.1)) rest)

/-- Run a loop, given how its last round ended. -/
def loop (isUntil : Bool) (test body : Command) : Nat → Nat → Run Unit
  | 0, _ => throw (.exit misuse)
  | fuel + 1, last => do
    let _ ← (Task.ask .tick : Task Reply)
    let goesOn ← inLoop do
      testing (command fuel false test)
      if ((← get).status == 0) == isUntil then
        setStatus last
        return false
      command fuel false body
      return true
    if goesOn then loop isUntil test body fuel (← get).status

/-- Run a loop over values. -/
def each (name : Chars) (body : Command) : Nat → List Chars → Run Unit
  | 0, _ => throw (.exit misuse)
  | _ + 1, [] => return ()
  | fuel + 1, value :: rest => do
    let _ ← (Task.ask .tick : Task Reply)
    assign name value
    let goesOn ← inLoop do
      command fuel false body
      return true
    if goesOn then each name body fuel rest

/-- Run the first branch with a pattern that a text matches. -/
def choose (text : Chars) (isLast : Bool) : Nat → List (List Word × Option Command) → Run Unit
  | 0, _ => throw (.exit misuse)
  | _ + 1, [] => setStatus 0
  | fuel + 1, (patterns, body) :: rest => do
    let isChosen ← patterns.anyM fun w => do
      return Glob.isMatch (Glob.pattern (← singleField (output fuel) w)) text
    if isChosen then
      match body with
      | some c => command fuel isLast c
      | none => setStatus 0
    else choose text isLast fuel rest

/-- Run a simple command. -/
def simple : Nat → Bool → Nat → List (Chars × Word) → List Word → List Redirect → Run Unit
  | 0, _, _, _, _, _ => throw (.exit misuse)
  | fuel + 1, isLast, line, assignments, words, redirects => do
    modify fun s => { s with line, outputStatus := none }
    let out := output fuel
    let found ← fields out words
    let within (body : Run Unit) : Run Unit := do
      match ← Redirection.push out true [] redirects with
      | none => setStatus misuse
      | some saved =>
        tryCatch body fun flow => do
          (Redirection.pop saved : Task Unit)
          throw flow
        (Redirection.pop saved : Task Unit)
    match found with
    | [] =>
      within do
        assignAll out false assignments []
        setStatus ((← get).outputStatus.getD 0)
    | name :: args =>
      match (← get).functions.lookup name with
      | some body =>
        if Builtin.isSpecial name then runNamed fuel isLast assignments redirects name args
        else within (withAssignments out assignments found (call fuel body args))
      | none => runNamed fuel isLast assignments redirects name args

/-- Run a command that is no function. -/
def runNamed : Nat → Bool → List (Chars × Word) → List Redirect → Chars → List Chars → Run Unit
  | 0, _, _, _, _, _ => throw (.exit misuse)
  | fuel + 1, isLast, assignments, redirects, name, args => do
    let out := output fuel
    let found := name :: args
    if Builtin.isSpecial name then
      let keeps := name ≠ "exec".toList
      match ← Redirection.push out keeps [] redirects with
      | none => throw .fault
      | some saved =>
        assignAll out (!keeps) assignments found
        tryCatch (do setStatus (← builtin fuel isLast name args)) fun flow => do
          (Redirection.pop saved : Task Unit)
          throw flow
        (Redirection.pop saved : Task Unit)
    else if isBuiltin name then
      match ← Redirection.push out true [] redirects with
      | none => setStatus misuse
      | some saved =>
        let body := withAssignments out assignments found do
          setStatus (← enduring (builtin fuel isLast name args))
        tryCatch body fun flow => do
          (Redirection.pop saved : Task Unit)
          throw flow
        (Redirection.pop saved : Task Unit)
    else
      let replaced : Run Unit := do
        let (message, code) ← become name args
        complain message
        throw (.exit code)
      let s ← get
      let isReplaced := isLast && !hasTraps s
      match ← Redirection.push out (!isReplaced) [] redirects with
      | none => setStatus misuse
      | some saved =>
        if isReplaced then
          assignAll out true assignments found
          replaced
        else
          let body := withAssignments out assignments found do
            let pid ← splitOff (ended fuel) replaced
            setStatus (← awaitForeground pid)
          tryCatch body fun flow => do
            (Redirection.pop saved : Task Unit)
            throw flow
          (Redirection.pop saved : Task Unit)

/-- Run a function. -/
def call : Nat → Command → List Chars → Run Unit
  | 0, _, _ => throw (.exit misuse)
  | fuel + 1, body, args => do
    let outer ← get
    modify fun s =>
      { s with args, locals := [] :: s.locals, loops := 0 }.readingOptionsFrom 1
    let back : Run Unit := do
      restoring ((← get).locals.headD [])
      modify fun s =>
        { s with
          args := outer.args, locals := s.locals.drop 1, loops := outer.loops
          optionIndex := outer.optionIndex, optionOffset := outer.optionOffset }
    tryCatch (command fuel false body) fun flow => do
      match flow with
      | .give n => setStatus n
      | .exit n =>
        throw (.exit n)
      | flow =>
        back
        throw flow
    back

/-- Run a command that is built in. -/
def builtin : Nat → Bool → Chars → List Chars → Run Nat
  | 0, _, _, _ => throw (.exit misuse)
  | fuel + 1, isLast, name, args => do
    if name = "command".toList then direct fuel isLast args
    else inContext name (runner fuel isLast name args)

/-- Run a command, whether or not there is a function of its name, or say what it means. -/
def direct : Nat → Bool → List Chars → Run Nat
  | 0, _, _ => throw (.exit misuse)
  | fuel + 1, isLast, args => do
    match args with
    | [] => return 0
    | first :: rest =>
      if first = "-v".toList || first = "-V".toList then
        let isShort := first = "-v".toList
        match rest with
        | [] => return 0
        | target :: _ =>
          match ← meaningOf isShort target with
          | some text => Builtin.say (text ++ ['\n'])
          | none =>
            if !isShort then
              let _ ← Builtin.say (target ++ ": not found\n".toList)
            return 127
      else
        let target := if first = "-p".toList || first = "--".toList then rest else args
        match target with
        | [] => return 0
        | name :: args =>
          if isBuiltin name then builtin fuel isLast name args
          else
            runNamed fuel isLast [] [] name args
            return (← get).status

/-- Run a command that is built in and is at work. -/
def runner : Nat → Bool → Chars → List Chars → Run Nat
  | 0, _, _, _ => throw (.exit misuse)
  | fuel + 1, isLast, name, args => do
    match String.ofList name with
    | "eval" =>
      setStatus 0
      script isLast fuel (joined args)
      return (← get).status
    | "." =>
      let (_, args) ← Builtin.optionsOf "" args
      match args with
      | [] => return 0
      | path :: _ =>
        let found ← if path.contains '/' then pure (.ok path)
          else (readableIn path (searchPath (← get)) : Task (Except Errno Chars))
        match found with
        | .error _ => abort (path ++ ": not found".toList)
        | .ok found =>
        match ← (textAt found : Task (Except Errno Chars)) with
        | .error e => abort (Redirection.failure .input path e)
        | .ok text =>
          setStatus 0
          tryCatch (inContext found (script false fuel text)) fun flow => do
            match flow with
            | .give n => setStatus n
            | flow => throw flow
          return (← get).status
    | "exec" =>
      match args with
      | [] => return 0
      | target :: args =>
        let (message, code) ← become target args
        complain message
        throw (.exit code)
    | "wait" =>
      let (_, args) ← Builtin.optionsOf "" args
      if args.isEmpty then
        let (ended, isCut) ← (waitForAll Task.rounds : Task (List (Nat × Nat) × Bool))
        modify fun s => { s with finished := s.finished ++ ended }
        if isCut then interruptedCode else return 0
      else
        let mut code := 0
        for arg in args do
          match Numeral.digits? arg with
          | some pid =>
            match ← (Task.ask (.wait (some pid) false) : Task Reply) with
            | .ended _ ending =>
              announce ending
              code := codeOf ending
              modify fun s => { s with finished := s.finished ++ [(pid, codeOf ending)] }
            | .error e =>
              if e = .interrupted then return ← interruptedCode
              code := ((← get).finished.lookup pid).getD 127
            | _ => code := 127
          | none => return ← Builtin.fault (Builtin.illegalNumber arg)
        return code
    | "hash" =>
      let (options, names) ← Builtin.optionsOf "r" args
      let mut code := 0
      for target in (if options.isEmpty then names else []) do
        if (← meaningOf true target).isNone then
          complain (target ++ ": not found".toList)
          code := 1
      return code
    | "type" =>
      let mut code := 0
      for target in args do
        match ← meaningOf false target with
        | some text =>
          let _ ← Builtin.say (text ++ ['\n'])
        | none =>
          let _ ← Builtin.say (target ++ ": not found\n".toList)
          code := 127
      return code
    | _ =>
      match Builtin.find? name with
      | some b => b args
      | none => return 127

end

/-! ## The program -/

/-- What a shell is told by its arguments. -/
structure Start where
  /-- The options. -/
  flags : List Char := []
  /-- Is the script an argument? -/
  isGiven : Bool := false
  /-- Is the script the standard input, whatever arguments there are? -/
  isRead : Bool := false
  /-- The other arguments. -/
  rest : List Chars := []

/-- The letters of the options. -/
def optionLetters : List Char := "csolpVE".toList ++ Builtin.optionNames.map (·.2)

/-- Read the options of a shell, or the first letter that is none; the fuel bounds the arguments. -/
def startFrom : Nat → Start → List Chars → Except Char Start
  | 0, st, _ | _ + 1, st, [] => .ok st
  | fuel + 1, st, arg :: rest =>
    match arg with
    | ['-', '-'] | ['-'] => .ok { st with rest }
    | '-' :: c :: cs =>
      let letters := c :: cs
      match letters.find? fun c => !optionLetters.contains c with
      | some bad => .error bad
      | none =>
        let st := { st with
          isGiven := st.isGiven || letters.contains 'c'
          isRead := st.isRead || letters.contains 's'
          flags := st.flags ++ letters.filter fun c => c ≠ 'c' && c ≠ 'o' && c ≠ 's' }
        if letters.contains 'o' then
          match rest with
          | name :: rest =>
            let flag := Builtin.optionNames.lookup (String.ofList name)
            startFrom fuel { st with flags := st.flags ++ flag.toList } rest
          | [] => .ok st
        else startFrom fuel st rest
    | _ => .ok { st with rest := arg :: rest }

/-- The variables of a new shell. -/
def initialVariables (env : EnvStrings) (directory : Chars) (parent : Nat) :
    List (Chars × Variable) :=
  let given := env.filterMap fun s =>
    let name := Latin.ofBytes (EnvStrings.nameOf s)
    if Token.isName name && s.contains EnvStrings.equals then
      some (name, { value := some (Latin.ofBytes (EnvStrings.valueOf s)), isExported := true })
    else none
  let path := "/usr/local/sbin:/usr/local/bin:/usr/sbin:/usr/bin:/sbin:/bin"
  let search : List (Chars × Variable) :=
    if given.any fun (n, _) => n = "PATH".toList then []
    else [("PATH".toList, { value := some path.toList })]
  let own : List (Chars × Variable) :=
    [("IFS".toList, { value := some [' ', '\t', '\n'] }),
      ("OPTIND".toList, { value := some ['1'] }),
      ("PS1".toList, { value := some ['#', ' '] }),
      ("PS2".toList, { value := some ['>', ' '] }),
      ("PS4".toList, { value := some ['+', ' '] }),
      ("PPID".toList, { value := some (toString parent).toList }),
      ("PWD".toList, { value := some directory, isExported := true })]
  let names := own.map (·.1)
  (given.filter fun (n, _) => !names.contains n) ++ search ++ own

/-- The shell as a program, given its argument vector and its environment. -/
def program (argv : List Bytes) (env : EnvStrings) : Task Nat := do
  let args := argv.map Latin.ofBytes
  let name := args.headD "sh".toList
  match startFrom (args.length + 1) {} (args.drop 1) with
  | .error c =>
    Task.warnLine [Latin.toBytes (name ++ ": 0: Illegal option -".toList ++ [c])]
    return misuse
  | .ok start =>
  let pid ← match ← Task.ask .self with
    | .number n => pure n
    | _ => pure 0
  let parent ← match ← Task.ask .parent with
    | .number n => pure n
    | _ => pure 0
  let directory ← match ← Task.ask .currentDirectory with
    | .bytes b => pure (Latin.ofBytes b)
    | _ => pure []
  let new (name : Chars) (args : List Chars) : Shell :=
    { name, args, pid, directory
      bindings := initialVariables env directory parent, flags := start.flags }
  let run (s : Shell) (isLast : Bool) (text : Chars) : Task Nat := do
    let (result, s) ← (script isLast deepestRun text).run s
    ended deepestRun s result
  if start.isGiven then
    match start.rest with
    | [] =>
      Task.warnLine [Latin.toBytes (name ++ ": 0: -c requires an argument".toList)]
      return misuse
    | text :: rest =>
      run (new (rest.headD name) (rest.drop 1)) true text
  else match (if start.isRead then none else some start.rest) with
    | some (path :: rest) =>
      match ← textAt path with
      | .error e =>
        let reason := if e = .notFound || e = .notDirectory then "No such file" else e.row.message
        Task.warnLine [Latin.toBytes (name ++ ": 0: cannot open ".toList ++ path ++ ": ".toList
          ++ reason.toList)]
        return misuse
      | .ok text => run (new path rest) false text
    | _ =>
      let bytes ← Task.readAll 0
      run (new name start.rest) false (textOf (bytes.toOption.getD []))

end CommandExpr.Machine.Shell
