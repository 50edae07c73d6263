import CommandExpr.Machine.Utility.Printf

/-!
# Plain output

The utilities that write what they are told: their arguments, a sequence of numbers, or a line over
and over.
-/

namespace CommandExpr.Machine.Utility

/-- Arguments with a blank between each two. -/
def spaced : List Bytes → Bytes
  | [] => []
  | [arg] => arg
  | arg :: rest => arg ++ 32 :: spaced rest

/-- How arguments are echoed. -/
structure EchoStyle where
  /-- Does a line end follow? -/
  endsLine : Bool := true
  /-- Are escapes carried out? -/
  expands : Bool := false

/-- The style after a cluster of options, if it is one. -/
def EchoStyle.after (style : EchoStyle) (arg : Bytes) : Option EchoStyle :=
  match Latin.ofBytes arg with
  | '-' :: c :: cs =>
    (c :: cs).foldlM (fun style c =>
      if c = 'n' then some { style with endsLine := false }
      else if c = 'e' then some { style with expands := true }
      else if c = 'E' then some { style with expands := false }
      else none) style
  | _ => none

/-- The style that the options in front tell, and the arguments that follow them. -/
def echoStyle (style : EchoStyle) : List Bytes → EchoStyle × List Bytes
  | [] => (style, [])
  | arg :: rest =>
    match style.after arg with
    | some style => echoStyle style rest
    | none => (style, arg :: rest)

/-- What echoing arguments writes. -/
def echoed (escapes : Escape.Style) (style : EchoStyle) (args : List Bytes) : Bytes :=
  let body := spaced args
  let (bytes, stopped) :=
    if style.expands then Escape.expand escapes (Latin.ofBytes body) else (body, false)
  if style.endsLine && !stopped then bytes ++ [Bytes.newline] else bytes

/-- The escapes of the utility that writes its arguments. -/
def echoEscapes : Escape.Style :=
  { skipsZero := true, stops := true, hasEscape := true, hasHex := true }

/-- Write the arguments. -/
def echo : Utility := fun i => do
  let (style, args) := echoStyle {} i.args
  emit i.name (echoed echoEscapes style args)

/-- Write the arguments as the command that is built into the shell does: it knows one option and
always carries out escapes. -/
def shellEcho : Utility := fun i => do
  let isQuiet := i.args.head? = some (Bytes.ofString "-n")
  let style : EchoStyle := { endsLine := !isQuiet, expands := true }
  let args := if isQuiet then i.args.drop 1 else i.args
  emitTersely i.name "echo" (echoed { skipsZero := true, stops := true, hasEscape := true } style args)

/-- Write a text over and over, within so many rounds. -/
def repeatedly (name : String) (bytes : Bytes) : Nat → Task Nat
  | 0 => return 0
  | fuel + 1 => do
    match ← Task.write 1 bytes with
    | .ok () => repeatedly name bytes fuel
    | .error e =>
      complain name [Bytes.ofString "standard output: ", reason e]
      return 1

/-- How many bytes are written over and over at a time, at least. -/
def repeatedLength : Nat := 8192

/-- Write a line over and over. -/
def yes : Utility := fun i => do
  let args := if i.args.head? = some (Bytes.ofString "--") then i.args.drop 1 else i.args
  let line := (if args.isEmpty then Bytes.ofString "y" else spaced args) ++ [Bytes.newline]
  let copies := repeatedLength / line.length + 1
  repeatedly i.name (List.replicate copies line).flatten Task.rounds

/-! ## Sequences -/

/-- A whole number of units of a power of ten. -/
structure Scaled where
  /-- The units. -/
  units : Int
  /-- How many places follow the point. -/
  places : Nat

namespace Scaled

/-- The number that a text spells. -/
def ofChars? (s : Chars) : Option Scaled :=
  (Decimal.ofChars? s).map fun d =>
    let places := (-d.exponent).toNat
    let units : Int := d.coefficient * 10 ^ d.exponent.toNat
    ⟨if d.negative then -units else units, places⟩

/-- The units of a number with more places. -/
def unitsAt (x : Scaled) (places : Nat) : Int := x.units * 10 ^ (places - x.places)

/-- The text of units with so many places, filled up with zeros to a width. -/
def text (places width : Nat) (units : Int) : Chars :=
  let sign := if units < 0 then ['-'] else []
  let body := Quantity.pointed places false units.natAbs
  sign ++ List.replicate (width - sign.length - body.length) '0' ++ body

end Scaled

/-- How many terms a sequence has; its step is not zero. -/
def termCount (first step last : Int) : Nat :=
  if 0 < step then (if last < first then 0 else ((last - first) / step).toNat + 1)
  else if first < last then 0 else ((first - last) / -step).toNat + 1

/-- The terms of a sequence. -/
def terms (first step last : Int) : List Int :=
  (List.range (termCount first step last)).map fun (k : Nat) => first + step * k

/-- What is wrong with the format of a sequence's terms, which holds one conversion of a number with
a point. -/
def formatFault? (format : Bytes) : Option (List Bytes) :=
  let about (words : String) : List Bytes :=
    [Bytes.ofString "format ", cited format, Bytes.ofString (" " ++ words)]
  let pieces (s : Chars) : List Chars := (scan s.length s).map fun rest =>
    let rest := rest.dropWhile fun c => "-+#0 '".toList.contains c
    let rest := rest.dropWhile isDigit
    match rest with
    | '.' :: rest => rest.dropWhile isDigit
    | _ => rest
  match pieces (Latin.ofBytes format) with
  | [] => some (about "has no % directive")
  | [] :: _ => some (about "ends in %")
  | (c :: _) :: more =>
    if !"efgaEFGA".toList.contains c then some (about s!"has unknown %{c} directive")
    else if more.isEmpty then none
    else some (about "has too many % directives")
where
  /-- What follows each percent sign that is not doubled; the fuel bounds the characters. -/
  scan : Nat → Chars → List Chars
    | 0, _ | _, [] => []
    | fuel + 1, '%' :: '%' :: rest => scan fuel rest
    | fuel + 1, '%' :: rest => rest :: scan fuel rest
    | fuel + 1, _ :: rest => scan fuel rest

/-- A term in a format, where backslashes mean themselves. -/
def formattedTerm (format : Bytes) (term : Chars) : Bytes :=
  let plain := format.flatMap fun b => if b = 92 then [92, 92] else [b]
  (Printf.formatted Printf.wide plain [Latin.toBytes term]).written.reverse

/-- Write a sequence of numbers. -/
def seqNumbers (i : Invocation) (u : Usage) : Task Nat := do
  if u.operands.isEmpty then missingOperand i.name
  else if let extra :: _ := u.operands.drop 3 then extraOperand i.name extra
  else
    let mut numbers : List Scaled := []
    for arg in u.operands do
      match Scaled.ofChars? (Latin.ofBytes arg) with
      | some n => numbers := numbers ++ [n]
      | none =>
        complain i.name [Bytes.ofString "invalid floating point argument: ", cited arg]
        hint i.name
        return 1
    let one : Scaled := ⟨1, 0⟩
    let (first, step, last) := match numbers with
      | [last] => (one, one, last)
      | [first, last] => (first, one, last)
      | first :: step :: last :: _ => (first, step, last)
      | [] => (one, one, one)
    if step.units = 0 then
      complain i.name [Bytes.ofString "invalid Zero increment value: ",
        cited (u.operands.getD 1 [])]
      hint i.name
      return 1
    let shown := max first.places step.places
    let places := max shown last.places
    let scale (units : Int) : Int := units / 10 ^ (places - shown)
    let all :=
      (terms (first.unitsAt places) (step.unitsAt places) (last.unitsAt places)).map scale
    let format := u.value? 'f'
    if let some message := format.bind formatFault? then
      complain i.name message
      return 1
    if u.has 'w' && format.isSome then
      complain i.name [Bytes.ofString
        "format string may not be specified when printing equal width strings"]
      hint i.name
      return 1
    let width := if u.has 'w' then
        ([all.head?, all.getLast?].filterMap id).foldl
          (fun w x => max w (Scaled.text shown 0 x).length) 0
      else 0
    let separator := (u.value? 's').getD [Bytes.newline]
    let texts := all.map fun x => match format with
      | some format => formattedTerm format (Scaled.text shown 0 x)
      | none => Latin.toBytes (Scaled.text shown width x)
    if texts.isEmpty then return 0
    emit i.name ((texts.intersperse separator).flatten ++ [Bytes.newline])

/-- Does an argument look like a number below zero? -/
def isNegativeNumber (arg : Bytes) : Bool :=
  match Latin.ofBytes arg with
  | '-' :: c :: _ => Decimal.isDigit c || c = '.'
  | _ => false

/-- Write a sequence of numbers. -/
def seq : Utility := fun i => do
  let options := i.args.takeWhile fun arg => !isNegativeNumber arg
  let table : OptionTable :=
    { flags := ['w'], valued := "sf".toList, isStrict := true
      long := [("equal-width", 'w'), ("separator", 's'), ("format", 'f')] }
  let after := i.args.drop options.length
  match readUsage table options with
  | .ok u => seqNumbers i { u with operands := u.operands ++ after }
  | .error message =>
    complain i.name [Latin.toBytes message]
    hint i.name
    return 1

end CommandExpr.Machine.Utility
