import CommandExpr.Machine.Program
import CommandExpr.Machine.Utility.Quoting
import CommandExpr.Numeral
import CommandExpr.Text.Latin

/-!
# What the utilities share

A utility is given its arguments and ends with a code. Here are its messages, the reading of its
options, and the reading of its input files.
-/

namespace CommandExpr.Machine

/-- Text whose characters stand for bytes. -/
abbrev Chars := List Char

/-- What a utility is given. -/
structure Invocation where
  /-- Its name. -/
  name : String
  /-- Its arguments. -/
  args : List Bytes
  /-- The variables, each as a name, an equals sign and a value. -/
  env : List Bytes

/-- A utility: given its invocation, a task that ends with its exit code. -/
abbrev Utility := Invocation → Task Nat

namespace Utility

export Quoting (quoted named cited)

/-- The characters of a text. -/
def chars (s : String) : Chars := Latin.ofBytes (Bytes.ofString s)

/-- Is it an ASCII digit? -/
def isDigit (c : Char) : Bool := (Numeral.digit? c).isSome

/-- Write a message: the name of the utility, a colon, and the parts. -/
def complain (name : String) (parts : List Bytes) : Task Unit :=
  Task.warnLine (Bytes.ofString (name ++ ": ") :: parts)

/-- The system's words for an error. -/
def reason (e : Errno) : Bytes := Bytes.ofString e.row.message

/-- Write a message about a file that ends with the reason. -/
def complainOf (name : String) (file : Bytes) (e : Errno) : Task Unit :=
  complain name [named file, Bytes.ofString ": ", reason e]

/-- Write a hint at the help text. -/
def hint (name : String) : Task Unit :=
  Task.warn s!"Try '{name} --help' for more information.\n"

/-- Write bytes to the standard output; the exit code. -/
def emit (name : String) (bytes : Bytes) : Task Nat := do
  match ← Task.write 1 bytes with
  | .ok () => return 0
  | .error e =>
    complain name [Bytes.ofString "write error: ", reason e]
    return 1

/-- Write bytes to the standard output as a command that is built into the shell; the exit code. -/
def emitTersely (title name : String) (bytes : Bytes) : Task Nat := do
  match ← Task.write 1 bytes with
  | .ok () => return 0
  | .error _ =>
    complain title [Bytes.ofString (name ++ ": I/O error")]
    return 1

/-! ## Options -/

/-- The options that a utility knows. -/
structure OptionTable where
  /-- Short options without a value. -/
  flags : List Char := []
  /-- Short options with a value. -/
  valued : List Char := []
  /-- Long names of short options. -/
  long : List (String × Char) := []
  /-- Do operands end the options? -/
  isStrict : Bool := false

/-- The options and the operands of an invocation. -/
structure Usage where
  /-- The options in order, each with its value or an empty one. -/
  options : List (Char × Bytes)
  /-- The operands in order. -/
  operands : List Bytes

namespace Usage

/-- Was an option given? -/
def has (u : Usage) (c : Char) : Bool := u.options.any (·.1 = c)

/-- The last value of an option. -/
def value? (u : Usage) (c : Char) : Option Bytes :=
  (u.options.filter (·.1 = c)).getLast?.map (·.2)

/-- The last given one of several options. -/
def last? (u : Usage) (cs : List Char) : Option Char :=
  (u.options.filter fun (c, _) => cs.contains c).getLast?.map (·.1)

end Usage

/-- The options in a cluster of short ones, and whether the last of them still needs a value. -/
def cluster (t : OptionTable) : Chars → Except Chars (List (Char × Bytes) × Option Char)
  | [] => .ok ([], none)
  | c :: rest =>
    if t.flags.contains c then
      (cluster t rest).map fun (options, pending) => ((c, []) :: options, pending)
    else if t.valued.contains c then
      match rest with
      | [] => .ok ([], some c)
      | _ => .ok ([(c, Latin.toBytes rest)], none)
    else .error ("invalid option -- '".toList ++ [c, '\''])

/-- Read a long option; the option, and whether it still needs a value. -/
def longOption (t : OptionTable) (body : Chars) :
    Except Chars (List (Char × Bytes) × Option Char) :=
  let name := body.takeWhile (· ≠ '=')
  let value := body.dropWhile (· ≠ '=')
  let exact := t.long.filter fun (n, _) => n.toList = name
  let starting := t.long.filter fun (n, _) => name.isPrefixOf n.toList
  match (if exact.isEmpty then starting else exact) with
  | [] => .error ("unrecognized option '--".toList ++ body ++ ['\''])
  | (_, c) :: _ =>
    match value with
    | [] => if t.valued.contains c then .ok ([], some c) else .ok ([(c, [])], none)
    | _ :: v => .ok ([(c, Latin.toBytes v)], none)

/-- An option that lacks its value. -/
def lackingValue (c : Char) : Chars := "option requires an argument -- '".toList ++ [c, '\'']

/-- Read options and operands; first of all the value of a pending option. -/
def readFrom (t : OptionTable) : Option Char → List Bytes → Except Chars Usage
  | none, [] => .ok ⟨[], []⟩
  | some c, [] => .error (lackingValue c)
  | some c, value :: rest =>
    (readFrom t none rest).map fun u => { u with options := (c, value) :: u.options }
  | none, arg :: rest =>
    let following : List (Char × Bytes) × Option Char → Except Chars Usage :=
      fun (found, pending) =>
        (readFrom t pending rest).map fun u => { u with options := found ++ u.options }
    match Latin.ofBytes arg with
    | ['-', '-'] => .ok ⟨[], rest⟩
    | '-' :: '-' :: body => (longOption t body).bind following
    | '-' :: c :: body => (cluster t (c :: body)).bind following
    | _ =>
      if t.isStrict then .ok ⟨[], arg :: rest⟩
      else (readFrom t none rest).map fun u => { u with operands := arg :: u.operands }

/-- Read options and operands. -/
def readUsage (t : OptionTable) (args : List Bytes) : Except Chars Usage := readFrom t none args

/-- Run a utility with its options read; `misuse` is its code for options that it does not know. -/
def withUsage (t : OptionTable) (misuse : Nat) (body : Invocation → Usage → Task Nat) : Utility :=
  fun i => do
    match readUsage t i.args with
    | .ok u => body i u
    | .error message =>
      complain i.name [Latin.toBytes message]
      hint i.name
      return misuse

/-! ## Order and width -/

/-- Is the first byte string not after the second one? -/
def isOrdered : Bytes → Bytes → Bool
  | [], _ => true
  | _, [] => false
  | a :: as, b :: bs => a < b || (a = b && isOrdered as bs)

/-- A text filled up at its front. -/
def padStart (fill : Char) (width : Nat) (s : Chars) : Chars :=
  List.replicate (width - s.length) fill ++ s

/-- A text filled up with blanks at its end. -/
def padEnd (width : Nat) (s : Chars) : Chars := s ++ List.replicate (width - s.length) ' '

/-! ## Input -/

/-- The name that stands for the standard input. -/
def dash : Bytes := Bytes.ofString "-"

/-- Run a task on the descriptor of an input file and close it again; an error if it cannot be
opened. -/
def withInput {α : Type} (file : Bytes) (body : Nat → Task α) : Task (Except Errno α) := do
  if file = dash then return .ok (← body 0)
  else
    match ← Task.open file { isReadable := true } with
    | .error e => return .error e
    | .ok fd =>
      let a ← body fd
      let _ ← Task.attempt (.close fd)
      return .ok a

/-- The whole of an input file. -/
def readInput (file : Bytes) : Task (Except Errno Bytes) := do
  match ← withInput file Task.readAll with
  | .ok result => return result
  | .error e => return .error e

/-- The whole of all input files, or of the standard input if there are none. A file that cannot be
read is complained of and left out; the code tells whether there was one. -/
def readInputs (name : String) (files : List Bytes) : Task (Bytes × Nat) := do
  let mut contents : List Bytes := []
  let mut code := 0
  for file in (if files.isEmpty then [dash] else files) do
    match ← readInput file with
    | .ok bytes => contents := bytes :: contents
    | .error e =>
      complainOf name file e
      code := 1
  return (contents.reverse.flatten, code)

/-- The pieces of a text that end with a mark, without the marks, in time proportional to its
length. -/
def linesUntil (stop : UInt8) (s : Bytes) : List Bytes :=
  let step : List Bytes × Bytes → UInt8 → List Bytes × Bytes := fun (done, current) b =>
    if b = stop then (current.reverse :: done, []) else (done, b :: current)
  let (done, current) := s.foldl step ([], [])
  (if current.isEmpty then done else current.reverse :: done).reverse

/-- The lines of a text, without the ends of line. -/
def lines (s : Bytes) : List Bytes := linesUntil Bytes.newline s

/-- Pieces with a mark put behind each. -/
def unlinesWith (stop : UInt8) (ls : List Bytes) : Bytes := ls.flatMap (· ++ [stop])

/-- Lines with the ends of line put back. -/
def unlines (ls : List Bytes) : Bytes := unlinesWith Bytes.newline ls

/-- A line for each missing operand. -/
def missingOperand (name : String) : Task Nat := do
  complain name [Bytes.ofString "missing operand"]
  hint name
  return 1

/-- A line for an operand too many. -/
def extraOperand (name : String) (operand : Bytes) : Task Nat := do
  complain name [Bytes.ofString "extra operand ", cited operand]
  hint name
  return 1

end Utility

end CommandExpr.Machine
