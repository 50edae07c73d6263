import CommandExpr.Machine.Shell.Expansion
import CommandExpr.Machine.Shell.SignalName
import CommandExpr.Machine.Utility.Condition
import CommandExpr.Machine.Utility.Echo
import CommandExpr.Machine.Utility.Printf

/-!
# Commands that are built into the shell

The commands that need nothing but the shell's state and the machine. Those that run other commands
stand with the running of commands.

## Main definitions

* `Builtin.find?` — a command by name
* `Builtin.isSpecial` — is it one whose faults end the shell?
-/

namespace CommandExpr.Machine.Shell

/-- What a command that is built in does with its arguments; its code. -/
abbrev Builtin := List Chars → Run Nat

namespace Builtin

/-- The commands whose assignments stay, and whose faults end the shell. -/
def special : List String :=
  [".", ":", "break", "continue", "eval", "exec", "exit", "export", "readonly", "return", "set",
    "shift", "times", "trap", "unset", "local"]

/-- Is it a command whose assignments stay, and whose faults end the shell? -/
def isSpecial (name : Chars) : Bool := special.any (·.toList = name)

/-- Complain; the code for misuse. -/
def fault (message : Chars) : Run Nat := do
  complain message
  return misuse

/-- What is said of an option that a command does not know. -/
def illegalOption (c : Char) : Chars := "Illegal option -".toList ++ [c]

/-- What is said of what is no number. -/
def illegalNumber (text : Chars) : Chars := "Illegal number: ".toList ++ text

/-- Take options off the front of arguments, after further letters of the one before; each comes with
its value. In the list of the known ones a colon stands behind an option with a value. The fuel
bounds the letters and the arguments. -/
def optionsFrom (known : Chars) : Nat → List (Char × Chars) → Chars → List Chars →
    Run (List (Char × Chars) × List Chars)
  | 0, seen, _, args => return (seen.reverse, args)
  | fuel + 1, seen, c :: cs, args =>
    match (if c = ':' then [] else known.dropWhile (· ≠ c)) with
    | [] => abort (illegalOption c)
    | _ :: ':' :: _ =>
      match (if cs.isEmpty then args else cs :: args) with
      | value :: rest => optionsFrom known fuel ((c, value) :: seen) [] rest
      | [] => abort ("No arg for -".toList ++ c :: " option".toList)
    | _ => optionsFrom known fuel ((c, []) :: seen) cs args
  | fuel + 1, seen, [], args =>
    match args with
    | ['-', '-'] :: rest => return (seen.reverse, rest)
    | ('-' :: c :: cs) :: rest => optionsFrom known fuel seen (c :: cs) rest
    | _ => return (seen.reverse, args)

/-- The options at the front of arguments, and the other arguments. -/
def optionsOf (known : String) (args : List Chars) : Run (List (Char × Chars) × List Chars) :=
  optionsFrom known.toList (Numeral.total (args.map fun a => a.length + 1) + 1) [] [] args

/-- Run a utility inside the shell. -/
def ofUtility (u : Utility) : Builtin := fun args => do
  let s ← get
  (u ⟨String.ofList s.title, args.map Latin.toBytes, s.environment⟩ : Task Nat)

/-- The number of an argument, the current status if there is none; none for what is no number. -/
def codeOf (args : List Chars) : Run (Option Nat) := do
  match args with
  | [] => return some (← get).status
  | arg :: _ => return (Numeral.digits? arg).filter (· < 2 ^ 31)

/-- Complain of a first argument that is no number, and end the shell. -/
def illegal (args : List Chars) : Run Nat := abort (illegalNumber (args.headD []))

/-! ## Flow -/

/-- End the shell. -/
def exit : Builtin := fun args => do
  match ← codeOf args with
  | some n => throw (.exit n)
  | none => illegal args

/-- End a function or the file that is read. -/
def «return» : Builtin := fun args => do
  match ← codeOf args with
  | some n => throw (.give n)
  | none => illegal args

/-- End loops, or go on with their next round. -/
def leave (flow : Nat → Flow) : Builtin := fun args => do
  let n := match args with
    | [] => some 1
    | arg :: _ => (Numeral.digits? arg).filter (0 < ·)
  match n with
  | none => illegal args
  | some n =>
    let loops := (← get).loops
    if loops = 0 then return 0 else throw (flow (min n loops))

/-! ## Arguments and options -/

/-- The options by name. -/
def optionNames : List (String × Char) :=
  [("errexit", 'e'), ("noglob", 'f'), ("ignoreeof", 'I'), ("interactive", 'i'), ("monitor", 'm'),
    ("noexec", 'n'), ("stdin", 's'), ("xtrace", 'x'), ("verbose", 'v'), ("vi", 'V'), ("emacs", 'E'),
    ("noclobber", 'C'), ("allexport", 'a'), ("notify", 'b'), ("nounset", 'u'), ("privileged", 'p')]

/-- The options that are only names. -/
def namedOptions : List String := ["nolog", "debug"]

/-- The flags with one switched. -/
def switched (isOn : Bool) (flags : List Char) (c : Char) : List Char :=
  let others := flags.filter (· ≠ c)
  if isOn then others ++ [c] else others

/-- A value between quotes, as the shell would read it. -/
def quotedValue (s : Chars) : Chars :=
  '\'' :: (s.flatMap fun c => if c = '\'' then "'\"'\"'".toList else [c]) ++ ['\'']

/-- Write to the standard output. -/
def say (text : Chars) : Run Nat := do
  match ← (Task.write 1 (Latin.toBytes text) : Task (Except Errno Unit)) with
  | .ok () => return 0
  | .error _ => return 1

/-- List the options with what they are, or as the commands that set them. -/
def listOptions (asCommands : Bool) : Run Nat := do
  let s ← get
  let known := optionNames.map fun (name, c) => (name, s.hasFlag c)
  let all := known ++ namedOptions.map fun name => (name, false)
  let line (name : String) (isOn : Bool) : Chars :=
    if asCommands then
      (if isOn then "set -o " else "set +o ").toList ++ name.toList ++ ['\n']
    else Utility.padEnd 16 name.toList ++ (if isOn then "on\n" else "off\n").toList
  let heading := if asCommands then [] else "Current option settings\n".toList
  say (heading ++ all.flatMap fun (name, isOn) => line name isOn)

/-- Set options by their letters; one that is named takes its name from the arguments that follow,
and what is left of those is the outcome. -/
def setLetters (sign : Char) : Chars → List Chars → Run (List Chars)
  | [], rest => return rest
  | c :: cs, rest => do
    let switch (flag : Char) : Run Unit :=
      modify fun s => { s with flags := switched (sign = '-') s.flags flag }
    if c = 'o' then
      match rest with
      | [] =>
        let _ ← listOptions (sign = '+')
        setLetters sign cs []
      | name :: rest =>
        match optionNames.lookup (String.ofList name) with
        | some flag => switch flag
        | none => if !namedOptions.contains (String.ofList name) then
            abort ("Illegal option -o ".toList ++ name)
        setLetters sign cs rest
    else if (optionNames.map (·.2)).contains c then
      switch c
      setLetters sign cs rest
    else abort ("Illegal option ".toList ++ [sign, c])

/-- Set the arguments. -/
def setArguments (args : List Chars) : Run Nat := do
  modify fun s => { s with args }.readingOptionsFrom 1
  return 0

/-- Set options, then arguments; the fuel bounds the options. -/
def setFrom : Nat → List Chars → Run Nat
  | 0, _ | _ + 1, [] => return 0
  | fuel + 1, arg :: rest =>
    match arg with
    | ['-', '-'] => setArguments rest
    | ['-'] => if rest.isEmpty then return 0 else setArguments rest
    | sign :: c :: cs =>
      if sign = '-' || sign = '+' then do setFrom fuel (← setLetters sign (c :: cs) rest)
      else setArguments (arg :: rest)
    | _ => setArguments (arg :: rest)

/-- Set options and arguments, or list the variables. -/
def set : Builtin := fun args => do
  if args.isEmpty then
    let s ← get
    let set := s.bindings.filterMap fun (n, v) => v.value.map fun value => (n, value)
    let sorted := set.mergeSort fun x y => Utility.isOrdered (Latin.toBytes x.1) (Latin.toBytes y.1)
    say (sorted.flatMap fun (n, value) => n ++ '=' :: quotedValue value ++ ['\n'])
  else setFrom (args.length + 1) args

/-- Drop arguments from the front. -/
def shift : Builtin := fun args => do
  let n := match args with
    | [] => some 1
    | arg :: _ => Numeral.digits? arg
  match n with
  | none => illegal args
  | some n =>
    if (← get).args.length < n then abort "can't shift that many".toList
    else
      modify fun s => { s with args := s.args.drop n }.readingOptionsFrom 1
      return 0

/-- What the reading of options comes to. -/
structure OptionStep where
  /-- The letter, or the sign for a fault. -/
  letter : Char
  /-- What the letter takes, none if that is forgotten. -/
  value : Option Chars := none
  /-- What is said. -/
  complaint : String := ""
  /-- The argument at which the reading goes on, from one on. -/
  index : Nat
  /-- The place in the argument before it at which the reading goes on. -/
  offset : Option Nat := none

/-- Read the next option of arguments, at a place in the one before `index` or at that one; none at
the end of the options, with the argument at which they end. -/
def nextOption (known : Chars) (args : List Chars) (index : Nat) (offset : Option Nat) :
    Except Nat OptionStep := do
  let isQuiet := known.head? = some ':'
  let under := match offset with
    | some n => if index ≤ 1 then [] else (args.getD (index - 2) []).drop n
    | none => []
  let (letters, index) ←
    if !under.isEmpty then pure (under, index)
    else match args[index - 1]? with
      | some ['-', '-'] => throw (index + 1)
      | some ('-' :: c :: cs) => pure (c :: cs, index + 1)
      | _ => throw index
  let place (rest : Chars) : Option Nat :=
    if rest.isEmpty then none else some ((args.getD (index - 2) []).length - rest.length)
  match letters with
  | [] => throw index
  | c :: rest =>
    let quietly (letter : Char) (complaint : String) (offset : Option Nat) : OptionStep :=
      if isQuiet then { letter, value := some [c], index, offset }
      else { letter := '?', complaint, index, offset }
    match (known.drop (if isQuiet then 1 else 0)).dropWhile (· ≠ c) with
    | [] => return quietly '?' s!"Illegal option -{c}\n" (place rest)
    | _ :: ':' :: _ =>
      if !rest.isEmpty then return { letter := c, value := some rest, index }
      else match args[index - 1]? with
        | some value => return { letter := c, value := some value, index := index + 1 }
        | none => return quietly ':' s!"No arg for -{c} option\n" none
    | _ => return { letter := c, value := some [], index, offset := place rest }

/-- Complain unless a text can be the name of a variable. -/
def checkName (n : Chars) : Run Unit := do
  if !Token.isName n then abort (n ++ ": bad variable name".toList)

/-- Read the next option of the arguments into a variable. -/
def getopts : Builtin := fun args => do
  match args with
  | known :: name :: rest =>
    let s ← get
    let args := if rest.isEmpty then s.args else rest
    let argument := "OPTARG".toList
    let step := nextOption known args s.optionIndex s.optionOffset
    let index := match step with
      | .ok step => step.index
      | .error index => index
    let letter := match step with
      | .ok step =>
        step.letter
      | .error _ => '?'
    if let .ok step := step then
      (Task.warn step.complaint : Task Unit)
      match step.value with
      | some value => assign argument value
      | none => modify (·.withoutVariable argument)
    assign optionIndexName (toString index).toList
    checkName name
    assign name [letter]
    let offset := (step.toOption).bind OptionStep.offset
    modify fun s => { s with optionIndex := index, optionOffset := offset }
    return if step.toOption.isSome then 0 else 1
  | _ => fault "Usage: getopts optstring var [arg...]".toList

/-! ## Variables -/

/-- The name and the value of an argument that may assign. -/
def setting (arg : Chars) : Chars × Option Chars :=
  let name := arg.takeWhile (· ≠ '=')
  (name, if name.length < arg.length then some (arg.drop (name.length + 1)) else none)

/-- Mark variables, and set those that get a value. -/
def mark (name : String) (change : Variable → Variable) (shows : Variable → Bool) : Builtin :=
  fun args => do
    let (options, operands) ← optionsOf "p" args
    if operands.isEmpty || !options.isEmpty then
      let s ← get
      let shown := s.bindings.filter fun (_, v) => shows v
      let sorted :=
        shown.mergeSort fun x y => Utility.isOrdered (Latin.toBytes x.1) (Latin.toBytes y.1)
      return ← say (sorted.flatMap fun (n, v) =>
        let value := match v.value with
          | some value => '=' :: quotedValue value
          | none => []
        name.toList ++ ' ' :: n ++ value ++ ['\n'])
    for arg in operands do
      let (n, value) := setting arg
      checkName n
      if let some value := value then assign n value
      let old := ((← get).binding? n).getD { value := none }
      modify fun s => s.withVariable n (change old)
    return 0

/-- Forget variables or functions. -/
def unset : Builtin := fun args => do
  let (options, names) ← optionsOf "vf" args
  for n in names do
    if (options.getLast?).any (·.1 = 'f') then
      modify fun s => { s with functions := s.functions.filter fun (f, _) => f ≠ n }
    else
      let (n, _) := setting n
      checkName n
      if ((← get).binding? n).any (·.isReadonly) then
        return ← abort (n ++ ": is read only".toList)
      modify (·.withoutVariable n)
  return 0

/-- Make variables belong to the function that runs, or with a dash the options. -/
def «local» : Builtin := fun args => do
  match (← get).locals with
  | [] => abort "not in a function".toList
  | saved :: outer =>
    let mut kept := saved
    for arg in args do
      let (n, value) := setting arg
      if n ≠ Shell.flagsName then checkName n
      if kept.all fun (m, _) => m ≠ n then kept := (n, (← get).binding? n) :: kept
      modify fun s => { s with locals := kept :: outer }
      if let some value := value then assign n value
    return 0

/-! ## Reading -/

/-- Read a line byte by byte: its characters, those after a backslash marked, and whether it ended.
The fuel bounds the bytes. -/
def readLine (isRaw : Bool) : Nat → Field → Task (Field × Bool)
  | 0, seen => return (seen.reverse, false)
  | fuel + 1, seen => do
    match ← Task.read 0 1 with
    | .ok (b :: _) =>
      let c := Char.ofNat b.toNat
      if c = '\x00' then readLine isRaw fuel seen
      else if c = '\n' then return (seen.reverse, true)
      else if c = '\\' && !isRaw then
        match ← Task.read 0 1 with
        | .ok (d :: _) =>
          let d := Char.ofNat d.toNat
          readLine isRaw fuel (if d = '\n' then seen else (d, true) :: seen)
        | _ => return (seen.reverse, false)
      else readLine isRaw fuel ((c, false) :: seen)
    | _ => return (seen.reverse, false)

/-- Share out a line among names; the last one gets what is left. -/
def share (separators : Chars) : List Chars → Field → List (Chars × Chars)
  | [], _ => []
  | [name], line =>
    let kept := trimStart line
    let word := kept.takeWhile fun x => !isSeparator x
    let after := trimStart (kept.drop word.length)
    let isAlone := (trimStart (after.drop 1)).isEmpty && after.all isSeparator
    let whole := (kept.reverse.dropWhile isBlankOf).reverse
    [(name, Field.text (if isAlone then word else whole))]
  | name :: rest, line =>
    let line := trimStart line
    let word := line.takeWhile fun x => !isSeparator x
    let after := trimStart (line.drop word.length)
    let after := match after with
      | x :: more => if isSeparator x then trimStart more else after
      | [] => []
    (name, Field.text word) :: share separators rest after
where
  /-- Does a character separate fields? -/
  isSeparator (x : Char × Bool) : Bool := !x.2 && separators.contains x.1
  /-- Is it a blank that separates fields? -/
  isBlankOf (x : Char × Bool) : Bool :=
    isSeparator x && (x.1 = ' ' || x.1 = '\t' || x.1 = '\n')
  /-- A line without the blanks at its start. -/
  trimStart (line : Field) : Field := line.dropWhile isBlankOf

/-- Read a line into variables. -/
def read : Builtin := fun args => do
  let (options, names) ← optionsOf "p:r" args
  if names.isEmpty then abort "arg count".toList
  let isRaw := options.any (·.1 = 'r')
  let (line, isWhole) ← (readLine isRaw Task.rounds [] : Task (Field × Bool))
  for (n, value) in share (← get).separators names line do
    checkName n
    assign n value
  return if isWhole then 0 else 1

/-! ## Directories -/

/-- A path from the root without dots. -/
def normal (path : Chars) : Chars :=
  let names := (path.splitOn '/').foldl (fun (kept : List Chars) part =>
    if part = [] || part = ['.'] then kept
    else if part = ['.', '.'] then kept.drop 1
    else part :: kept) []
  if names.isEmpty then ['/'] else names.reverse.flatMap ('/' :: ·)

/-- Are links to be followed in what a directory is called? The last option tells. -/
def isPhysical (options : List (Char × Chars)) : Bool :=
  (options.getLast?).any (·.1 = 'P')

/-- The path of the current directory without links. -/
def currentDirectory : Run Chars := do
  match ← (Task.ask .currentDirectory : Task Reply) with
  | .bytes b => return Latin.ofBytes b
  | _ => return []

/-- Change the current directory, and the variables that tell it; was that possible? A path is read
from what the directory is called now, unless links are to be followed. -/
def enter (follows : Bool) (path : Chars) : Run Bool := do
  let old := (← get).directory
  let named := normal (if path.head? = some '/' then path else old ++ '/' :: path)
  let target := Latin.toBytes (if follows then path else named)
  match ← (Task.attempt (.changeDirectory target) : Task (Except Errno Unit)) with
  | .error _ => return false
  | .ok () =>
    let new ← if follows then currentDirectory else pure named
    modify fun s => { s with directory := new }
    for (n, value) in [("OLDPWD".toList, old), ("PWD".toList, new)] do
      assign n value
      modify fun s => s.withVariable n { value := some value, isExported := true }
    return true

/-- Does a path say itself where it starts? -/
def isAnchored (path : Chars) : Bool :=
  path.head? = some '/' || [['.'], ['.', '.']].contains (path.takeWhile (· ≠ '/'))

/-- Change the current directory. -/
def cd : Builtin := fun args => do
  let (options, operands) ← optionsOf "LP" args
  let s ← get
  let (given, isBack) := match operands.head? with
    | none => ((s.value? "HOME".toList).getD [], false)
    | some ['-'] => ((s.value? "OLDPWD".toList).getD [], true)
    | some dir => (dir, false)
  let target := if given.isEmpty then ['.'] else given
  let starts := match s.value? "CDPATH".toList with
    | some list => if isAnchored given then [] else list.splitOn ':'
    | none => []
  let candidates := starts.map fun dir => (dir, if dir.isEmpty then target else dir ++ '/' :: target)
  let found ← candidates.findM? fun (_, path) =>
    (Utility.isDirectoryAt (Latin.toBytes path) : Task Bool)
  let (start, path) := found.getD ([], target)
  if ← enter (isPhysical options) path then
    if isBack || !start.isEmpty then say ((← get).directory ++ ['\n']) else return 0
  else abort ("can't cd to ".toList ++ target)

/-- Write the path of the current directory. -/
def pwd : Builtin := fun args => do
  let (options, _) ← optionsOf "LP" args
  let path ← if isPhysical options then currentDirectory else pure (← get).directory
  say (path ++ ['\n'])

/-! ## Signals -/

/-- Send signals. -/
def kill : Builtin := fun args => do
  let usage : Run Nat := do
    let _ ← fault "Usage: kill [-s sigspec | -signum | -sigspec] [pid | job]... or".toList
    (Task.warn "kill -l [exitstatus]\n" : Task Unit)
    return misuse
  let bad (name : Chars) : Run Nat :=
    fault ("invalid signal number or name: ".toList ++ name)
  let send (signal : Nat) (targets : List Chars) : Run Nat := do
    let mut code := 0
    if targets.isEmpty then return ← usage
    for t in targets do
      match Numeral.digits? t with
      | none =>
        let _ ← fault (illegalNumber t)
        return misuse
      | some pid =>
        match ← (Task.attempt (.kill pid signal) : Task (Except Errno Unit)) with
        | .ok () => pure ()
        | .error _ =>
          complain "No such process\n".toList
          code := 1
    return code
  match args with
  | [] => usage
  | arg :: rest =>
    match arg with
    | ['-', '-'] => send Signal.term.number rest
    | ['-', 'l'] =>
      match rest with
      | [] =>
        say ((((List.range (SignalName.last + 1)).drop 1).map SignalName.ofNumber).flatMap
          fun n => n.toList ++ ['\n'])
      | code :: _ =>
        match Numeral.digits? code with
        | some n =>
          say ((SignalName.ofNumber (if 128 < n then n - 128 else n)).toList ++ ['\n'])
        | none => fault (illegalNumber code)
    | ['-', 's'] =>
      match rest with
      | name :: targets =>
        match SignalName.number? 0 name with
        | some n => send n targets
        | none => bad name
      | [] => fault "No arg for -s option".toList
    | '-' :: name =>
      match SignalName.number? 0 name with
      | some n => send n (if rest.head? = some "--".toList then rest.drop 1 else rest)
      | none => do
        complain (illegalOption (name.headD '-'))
        return misuse
    | _ => send Signal.term.number args

/-- Let a signal have an action: none for what it does by itself, an empty one to ignore it. -/
def setTrap (signal : Nat) (action : Option Chars) : Run Unit := do
  let s ← get
  let isOurs := s.traps.any fun (n, _) => n = signal
  let isFixed ←
    if signal = 0 || isOurs then pure false
    else do
      match ← (Task.ask (.signalState signal) : Task Reply) with
      | .disposition .ignored => pure true
      | _ => pure false
  let others := s.traps.filter fun (n, _) => n ≠ signal
  let traps := match action with
    | some a => others ++ [(signal, a)]
    | none => others
  modify fun s => { s with traps }
  if signal ≠ 0 && !isFixed then
    let d : Disposition := match action with
      | none => .default
      | some [] => .ignored
      | some _ => .caught
    let _ ← (Task.ask (.setSignal signal d) : Task Reply)

/-- Set what is done at signals, or list it. -/
def trap : Builtin := fun args => do
  let (_, args) ← optionsOf "" args
  match args with
  | [] =>
    let sorted := (← get).traps.mergeSort fun x y => x.1 ≤ y.1
    say (sorted.flatMap fun (n, a) =>
      "trap -- ".toList ++ quotedValue a ++ ' ' :: (SignalName.ofNumber n).toList ++ ['\n'])
  | first :: rest =>
    let isReset := rest.isEmpty || (Numeral.digits? first).isSome
    let action := if isReset || first = ['-'] then none else some first
    for name in (if isReset then args else rest) do
      match SignalName.number? 0 name with
      | some n => setTrap n action
      | none =>
        (Task.warnLine [Latin.toBytes ("trap: ".toList ++ name ++ ": bad trap".toList)] : Task Unit)
        return 1
    return 0

/-- Write the permission bits that new files do not get, or set them. -/
def umask : Builtin := fun args => do
  let (options, operands) ← optionsOf "S" args
  match operands with
  | [] =>
    if options.isEmpty then
      let digits := Nat.toDigits 8 (← currentMask)
      say (List.replicate (4 - digits.length) '0' ++ digits ++ ['\n'])
    else
      let allowed := 0o777 - (0o777 &&& (← currentMask))
      let part (name : Char) (shift : Nat) : Chars :=
        let bits := allowed >>> shift
        let letters := [(4, 'r'), (2, 'w'), (1, 'x')].filterMap fun (bit, letter) =>
          if bits &&& bit ≠ 0 then some letter else none
        name :: '=' :: letters
      say ((([part 'u' 6, part 'g' 3, part 'o' 0].intersperse [',']).flatten) ++ ['\n'])
  | arg :: _ =>
    if (arg.head?).any fun c => '0' ≤ c && c ≤ '9' then
      if arg.all fun c => '0' ≤ c && c ≤ '7' then
        setMask (arg.foldl (fun n c => 8 * n + (c.toNat - 48)) 0)
      else fault (illegalNumber arg)
    else
      let allowed := 0o777 - (0o777 &&& (← currentMask))
      match (arg.splitOn ',').foldlM (Utility.changedMode false 0) allowed with
      | some bits => setMask (0o777 - (0o777 &&& bits))
      | none => fault ("Illegal mode: ".toList ++ arg)
where
  /-- The permission bits that new files do not get. -/
  currentMask : Run Nat := do
    match ← (Task.ask (.setMask 0) : Task Reply) with
    | .number old =>
      let _ ← (Task.ask (.setMask old) : Task Reply)
      return old
    | _ => return 0
  /-- Let new files not get some permission bits. -/
  setMask (mask : Nat) : Run Nat := do
    let _ ← (Task.ask (.setMask (mask &&& 0o777)) : Task Reply)
    return 0

/-! ## Aliases -/

/-- A line of the list of aliases. -/
def aliasLine (name value : Chars) : Chars := name ++ '=' :: quotedValue value ++ ['\n']

/-- Let words stand for texts, or list such words. -/
def alias_ : Builtin := fun args => do
  if args.isEmpty then
    return ← say ((← get).aliases.flatMap fun (name, value) => aliasLine name value)
  let mut code := 0
  for arg in args do
    match setting arg with
    | (name, some value) =>
      modify fun s =>
        let others := s.aliases.filter fun (n, _) => n ≠ name
        { s with aliases := others ++ [(name, value)] }
    | (name, none) =>
      match (← get).aliases.lookup name with
      | some value =>
        let _ ← say (aliasLine name value)
      | none =>
        (Task.warnLine [Latin.toBytes ("alias: ".toList ++ name ++ " not found".toList)] : Task Unit)
        code := 1
  return code

/-- Let words stand for themselves again. -/
def unalias : Builtin := fun args => do
  let (options, names) ← optionsOf "a" args
  if !options.isEmpty then
    modify fun s => { s with aliases := [] }
    return 0
  let mut code := 0
  for name in names do
    if ((← get).aliases.lookup name).isNone then
      (Task.warnLine [Latin.toBytes ("unalias: ".toList ++ name ++ " not found".toList)] :
        Task Unit)
      code := 1
    modify fun s => { s with aliases := s.aliases.filter fun (n, _) => n ≠ name }
  return code

/-- Show a limit, none of which is set; setting one changes nothing. -/
def ulimit : Builtin := fun args =>
  if args.all fun a => a.head? = some '-' then say "unlimited\n".toList else return 0

/-! ## The table -/

/-- The commands by name that need nothing but the shell's state and the machine. -/
def table : List (String × Builtin) :=
  [(":", fun _ => return 0), ("true", fun _ => return 0), ("false", fun _ => return 1),
    ("echo", ofUtility Utility.shellEcho),
    ("printf", ofUtility Utility.shellPrintf),
    ("test", ofUtility Utility.test),
    ("exit", exit), ("return", «return»), ("break", leave .leave),
    ("continue", leave .next), ("set", set), ("shift", shift),
    ("export", mark "export" (fun v => { v with isExported := true }) (·.isExported)),
    ("readonly", mark "readonly" (fun v => { v with isReadonly := true }) (·.isReadonly)),
    ("unset", unset), ("local", «local»), ("read", read), ("cd", cd), ("chdir", cd), ("pwd", pwd),
    ("kill", kill), ("trap", trap),
    ("umask", umask),
    ("times", fun _ => say "0m0.000000s 0m0.000000s\n0m0.000000s 0m0.000000s\n".toList),
    ("alias", alias_), ("unalias", unalias), ("ulimit", ulimit),
    ("getopts", getopts), ("jobs", fun _ => return 0),
    ("fg", fun _ => fault "No current job".toList), ("bg", fun _ => fault "No current job".toList)]

/-- The condition in brackets. -/
def bracket : Builtin := fun args =>
  if args.getLast? = some "]".toList then ofUtility Utility.test args.dropLast
  else fault "missing ]".toList

/-- A command by name. -/
def find? (name : Chars) : Option Builtin :=
  if name = ['['] then some bracket else table.lookup (String.ofList name)

end Builtin

end CommandExpr.Machine.Shell
