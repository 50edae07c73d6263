import CommandExpr.Machine.Launch
import CommandExpr.Machine.Shell.Script

/-!
# The state of the shell

Variables, functions, arguments and traps, and the computations that change them while they ask the
machine for things.

## Main definitions

* `Shell` — the state
* `Flow` — what cuts a computation short
* `Run` — a computation of the shell
-/

namespace CommandExpr.Machine

/-- A variable. -/
structure Variable where
  /-- Its value, if it is set. -/
  value : Option Chars
  /-- Do programs get it? -/
  isExported : Bool := false
  /-- Can it not be changed? -/
  isReadonly : Bool := false

/-- The state of a shell. -/
structure Shell where
  /-- The name under which it complains. -/
  name : Chars
  /-- The arguments of the script or of the function that runs. -/
  args : List Chars
  /-- The number of the process that the shell started as. -/
  pid : Nat
  /-- The path of the current directory, as the shell came there. -/
  directory : Chars
  /-- The variables. -/
  bindings : List (Chars × Variable) := []
  /-- The functions. -/
  functions : List (Chars × Shell.Command) := []
  /-- How the last command ended. -/
  status : Nat := 0
  /-- How the last script ended whose output was taken in the current command. -/
  outputStatus : Option Nat := none
  /-- The number of the last process that the shell does not wait for. -/
  lastBackground : Option Nat := none
  /-- The codes of the processes that were waited for, by number. -/
  finished : List (Nat × Nat) := []
  /-- The options that are on. -/
  flags : List Char := []
  /-- What is done at signals; number zero is the end of the shell. -/
  traps : List (Nat × Chars) := []
  /-- What variables were outside the functions that run, the innermost one first. -/
  locals : List (List (Chars × Option Variable)) := []
  /-- How many loops are under way. -/
  loops : Nat := 0
  /-- How many tests are under way, in which failure does no harm. -/
  tests : Nat := 0
  /-- The signals that came in and were not yet acted on. -/
  arrived : List Nat := []
  /-- The number of the current line. -/
  line : Nat := 1
  /-- The command or the file that is at work, if what it says is to be told apart. -/
  context : Option Chars := none
  /-- Words that stand for texts where a command starts. -/
  aliases : List (Chars × Chars) := []
  /-- The argument at which the reading of options goes on, from one on. -/
  optionIndex : Nat := 1
  /-- The place in the argument before it at which the reading goes on. -/
  optionOffset : Option Nat := none

namespace Shell

/-- What cuts a computation short. -/
inductive Flow where
  /-- The end of the shell. -/
  | exit (code : Nat)
  /-- A fault, complained of; the end of the shell unless it can do without the command. -/
  | fault
  /-- The end of so many loops. -/
  | leave (loops : Nat)
  /-- The next round of a loop, and the end of so many inside it. -/
  | next (loops : Nat)
  /-- The end of a function. -/
  | give (code : Nat)

/-- A computation of the shell. -/
abbrev Run := ExceptT Flow (StateT Shell Task)

/-! ## Variables -/

/-- The name under which the options are kept among the variables that belong to a function. -/
def flagsName : Chars := ['-']

/-- A variable by name, or the options. -/
def binding? (s : Shell) (name : Chars) : Option Variable :=
  if name = flagsName then some { value := some s.flags } else s.bindings.lookup name

/-- The value of a variable. -/
def value? (s : Shell) (name : Chars) : Option Chars := (s.binding? name).bind Variable.value

/-- The state with a variable put in. -/
def withVariable (s : Shell) (name : Chars) (v : Variable) : Shell :=
  let others := s.bindings.filter fun (n, _) => n ≠ name
  { s with bindings := others ++ [(name, v)] }

/-- The state without a variable. -/
def withoutVariable (s : Shell) (name : Chars) : Shell :=
  { s with bindings := s.bindings.filter fun (n, _) => n ≠ name }

/-- The state with the reading of options to start again from an argument. -/
def readingOptionsFrom (s : Shell) (index : Nat) : Shell :=
  { s with optionIndex := max index 1, optionOffset := none }

/-- The variable that tells where the reading of options goes on. -/
def optionIndexName : Chars := "OPTIND".toList

/-- The state with a variable set to a value; what else is known about it stays. -/
def assigning (s : Shell) (name value : Chars) : Shell :=
  let old := (s.binding? name).getD { value := none }
  let isExported := old.isExported || s.flags.contains 'a'
  let s := if name = optionIndexName then
      s.readingOptionsFrom ((Numeral.digits? value).getD 1)
    else s
  s.withVariable name { old with value := some value, isExported }

/-- The environment that programs get. -/
def environment (s : Shell) : EnvStrings :=
  s.bindings.filterMap fun (name, v) =>
    if v.isExported then
      v.value.map fun value => EnvStrings.string (Latin.toBytes name) (Latin.toBytes value)
    else none

/-- The characters that separate fields. -/
def separators (s : Shell) : Chars := (s.value? "IFS".toList).getD [' ', '\t', '\n']

/-- What stands between arguments that are put in a row: the first character that separates
fields. -/
def joint (s : Shell) : Chars :=
  match s.value? "IFS".toList with
  | none => [' ']
  | some ifs => ifs.take 1

/-- Is an option on? -/
def hasFlag (s : Shell) (c : Char) : Bool := s.flags.contains c

/-! ## Complaints -/

/-- In whose name complaints are made: that of the shell, the current line, and the command or the
file that is at work. -/
def title (s : Shell) : Chars :=
  let inner := match s.context with
    | some name => ": ".toList ++ name
    | none => []
  s.name ++ ": ".toList ++ (toString s.line).toList ++ inner

/-- Complain. -/
def complain (message : Chars) : Run Unit := do
  (Task.warnLine [Latin.toBytes ((← get).title ++ ": ".toList ++ message)] : Task Unit)

/-- Run a computation while a command or a file is at work. -/
def inContext {α : Type} (name : Chars) (body : Run α) : Run α := do
  let outer := (← get).context
  let back : Run Unit := modify fun s => { s with context := outer }
  modify fun s => { s with context := some name }
  let result ← tryCatch body fun flow => do
    back
    throw flow
  back
  return result

/-- The code for misuse. -/
def misuse : Nat := 2

/-- Complain, and leave the command that is run; most often that ends the shell. -/
def abort {α : Type} (message : Chars) : Run α := do
  complain message
  throw .fault

/-- How the command of the shell ended. -/
def setStatus (code : Nat) : Run Unit := modify fun s => { s with status := code }

/-- Set a variable, unless it cannot be changed. -/
def assign (name value : Chars) : Run Unit := do
  if ((← get).binding? name).any (·.isReadonly) then
    abort (name ++ ": is read only".toList)
  modify (·.assigning name value)

/-! ## Splitting -/

/-- The program that a computation comes to; how it ends is for `finish` to say. -/
def toProgram (s : Shell) (body : Run Unit) (finish : Shell → Except Flow Unit → Task Nat) :
    Program :=
  let task : Task Nat := do
    let (result, s) ← body.run s
    finish s result
  task.toProgram

end Shell

end CommandExpr.Machine
