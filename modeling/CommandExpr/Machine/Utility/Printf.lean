import CommandExpr.Machine.Utility.Escape
import CommandExpr.Machine.Utility.Quantity

/-!
# Formatted printing

The format is used again as long as arguments are left; arguments that are missing count as empty
text or zero. Numbers that are not well-formed are complained of, and what was read of them counts.

## Main definitions

* `Printf.formatted` — one pass over the format
* `Utility.printf` — the utility
-/

namespace CommandExpr.Machine.Printf

/-- Where a width or a precision comes from. -/
inductive Extent where
  | given (n : Nat)
  | fromArgument
  deriving DecidableEq

/-- A conversion of a format. -/
structure Directive where
  /-- Flags in order. -/
  flags : Chars
  /-- The least width. -/
  width : Option Extent
  /-- Digits or characters. -/
  precision : Option Extent
  /-- What it converts to. -/
  letter : Char

/-- What a pass has come to so far. -/
structure Progress where
  /-- What was written, the last byte first. -/
  written : Bytes := []
  /-- The arguments that are left. -/
  args : List Bytes
  /-- Messages, the last one first. -/
  complaints : List Bytes := []
  /-- The code of the complaints that count, zero if there was none. -/
  code : Nat := 0
  /-- Was an argument used? -/
  used : Bool := false
  /-- Has all output ended? -/
  stopped : Bool := false
  /-- Was a text left out because it was too long? -/
  isShort : Bool := false

namespace Progress

/-- The progress with bytes written. -/
def put (p : Progress) (b : Bytes) : Progress := { p with written := b.reverse ++ p.written }

/-- The progress with a complaint that counts. -/
def complain (p : Progress) (message : Bytes) : Progress :=
  { p with complaints := message :: p.complaints, code := max p.code 1 }

/-- The next argument. -/
def next (p : Progress) : Option Bytes × Progress :=
  match p.args with
  | [] => (none, p)
  | arg :: rest => (some arg, { p with args := rest, used := true })

/-- The progress after a fault that ends everything. -/
def abort (p : Progress) (message : Bytes) (code : Nat) : Progress :=
  { p.complain message with stopped := true, code }

end Progress

/-- How a printer reads its format and words its complaints. -/
structure Dialect where
  /-- The escapes of the format. -/
  format : Escape.Style
  /-- The escapes of an argument that is expanded. -/
  argument : Escape.Style
  /-- May a size stand in front of the letter of a conversion? -/
  hasSizes : Bool
  /-- The flags that rule out letters. -/
  ruledOut : Char → Chars
  /-- What is said of an argument that is no number. -/
  noNumber : Bytes → Bytes
  /-- What is said of an argument that is a number only at its front. -/
  halfNumber : Bytes → Bytes
  /-- What is said of an argument that is out of range. -/
  outOfRange : Bytes → Bytes
  /-- What is said of a conversion that makes no sense, given its letter if it has one. -/
  badDirective : Chars → Option Char → Bytes
  /-- The code after a conversion that makes no sense. -/
  badCode : Nat
  /-- Is it said that something is left out? -/
  warns : Bool
  /-- What numbers with a point can be told apart. -/
  precision : Quantity.Precision
  /-- Is a number that is out of range complained of for that, whatever follows it? -/
  isRangeFirst : Bool
  /-- What is said of a width or a precision, by name, that is out of range, none if its last
  thirty-two bits are taken. -/
  badExtent : Option (String → Bytes → Bytes)
  /-- What comes of a text that is too long. -/
  overlong : Progress → Progress

/-- A complaint about an argument between quotes. -/
def about (arg : Bytes) (words : String) : Bytes :=
  Utility.cited arg ++ Bytes.ofString (": " ++ words)

/-- A complaint about an argument. -/
def plainlyAbout (arg : Bytes) (words : String) : Bytes := arg ++ Bytes.ofString (": " ++ words)

/-- The letters that a flag of the utility rules out. -/
def ruledOutWidely : Char → Chars
  | '#' => "cdisu".toList
  | '0' => "cs".toList
  | '\'' => "ceEosxX".toList
  | _ => []

/-- The utility. -/
def wide : Dialect where
  format :=
    { stops := true, hasEscape := true, hasHex := true, escapesQuotes := true
      hasCodePoints := true }
  argument :=
    { skipsZero := true, stops := true, hasEscape := true, hasHex := true, escapesQuotes := true
      hasCodePoints := true }
  hasSizes := true
  ruledOut := ruledOutWidely
  noNumber arg := about arg "expected a numeric value"
  halfNumber arg := about arg "value not completely converted"
  outOfRange arg := about arg "Numerical result out of range"
  badDirective s _ := Latin.toBytes s ++ Bytes.ofString ": invalid conversion specification"
  badCode := 1
  warns := true
  precision := .extended
  isRangeFirst := true
  badExtent := some fun noun arg =>
    Bytes.ofString ("invalid " ++ noun ++ ": ") ++ Utility.cited arg
  overlong p := { p with isShort := true }

/-- The command that is built into the shell. -/
def narrow : Dialect where
  format := { hasEscape := true }
  argument := { skipsZero := true, stops := true, hasEscape := true }
  hasSizes := false
  ruledOut _ := []
  noNumber arg := plainlyAbout arg "expected numeric value"
  halfNumber arg := plainlyAbout arg "not completely converted"
  outOfRange arg := plainlyAbout arg "Numerical result out of range"
  badDirective s letter := match letter with
    | some _ => Latin.toBytes s ++ Bytes.ofString ": invalid directive"
    | none => Bytes.ofString "missing format character"
  badCode := 2
  warns := false
  precision := .double
  isRangeFirst := false
  badExtent := none
  overlong p := p.abort (Bytes.ofString "xvsnprintf failed") 2

/-! ## Arguments as numbers -/

/-- A whole number at the front of a text, in the base that its first characters tell. -/
def integerFront? (s : Chars) : Option (Int × Chars) :=
  let (negative, body) := Decimal.sign (s.dropWhile fun c => c = ' ' || ('\t' ≤ c && c ≤ '\r'))
  let signed (n : Nat) : Int := if negative then -n else n
  let read (base : Nat) (digits : Chars) : Option (Int × Chars) :=
    match Escape.digits base digits.length 0 digits with
    | (0, _, _) => none
    | (_, n, rest) => some (signed n, rest)
  match body with
  | '0' :: x :: rest =>
    if x = 'x' || x = 'X' then (read 16 rest).or (some (0, x :: rest)) else read 8 body
  | '0' :: _ => read 8 body
  | _ => read 10 body

/-- What is complained of in the reading of a number, given what follows it. -/
def misread (t : Dialect) (arg : Bytes) : Option Chars → Option Bytes
  | none => if arg.isEmpty then none else some (t.noNumber arg)
  | some [] => none
  | some _ => some (t.halfNumber arg)

/-- What is complained of when more than a character follows a quote. -/
def ignored (rest : Bytes) : Bytes :=
  Bytes.ofString "warning: " ++ rest
    ++ Bytes.ofString ": character(s) following character constant have been ignored"

/-- The argument as a number by one of the readers; a quote stands in front of a character whose
number counts. -/
def numberOf {α : Type} (t : Dialect) (p : Progress) (arg : Option Bytes) (zero : α)
    (ofCode : Nat → α) (read : Chars → Option (α × Chars)) (range : α → α × Bool) : α × Progress :=
  let arg := arg.getD []
  match arg with
  | 34 :: b :: rest | 39 :: b :: rest =>
    let p := if rest.isEmpty || !t.warns then p
      else { p with complaints := ignored rest :: p.complaints }
    (ofCode b.toNat, p)
  | _ =>
    let found := read (Latin.ofBytes arg)
    let (value, isInRange) := range ((found.map (·.1)).getD zero)
    let rangeMessage := if isInRange then none else some (t.outOfRange arg)
    let readMessage := misread t arg (found.map (·.2))
    let message := if t.isRangeFirst then rangeMessage.or readMessage
      else readMessage.or rangeMessage
    (value, match message with | some message => p.complain message | none => p)

/-- The argument as a whole number between two bounds. -/
def integerOf (t : Dialect) (p : Progress) (arg : Option Bytes) (low high : Int) : Int × Progress :=
  numberOf t p arg 0 Int.ofNat integerFront? fun n =>
    if n < low then (low, false) else if high < n then (high, false) else (n, true)

/-- The argument as a number with a point. -/
def quantityOf (t : Dialect) (p : Progress) (arg : Option Bytes) : Quantity × Progress :=
  let (x, p) := numberOf t p arg (Quantity.ratio false 0 1, true)
    (fun n => (.ratio false n 1, true)) (Quantity.reading? t.precision) fun x => (x, x.2)
  (x.1, p)

/-! ## Conversions -/

/-- Fill up to a width: on the right for a minus, with zeros after the sign if asked for. -/
def pad (flags : Chars) (width : Nat) (zeros : Bool) (sign body : Chars) : Chars :=
  let fill := width - (sign.length + body.length)
  if flags.contains '-' then sign ++ body ++ List.replicate fill ' '
  else if zeros then sign ++ List.replicate fill '0' ++ body
  else List.replicate fill ' ' ++ sign ++ body

/-- The sign of a number that is not below zero. -/
def plusSign (flags : Chars) : Chars :=
  if flags.contains '+' then ['+'] else if flags.contains ' ' then [' '] else []

/-- A whole number in a base, with at least so many digits. -/
def wholeText (base : Nat) (isUpper : Bool) (precision : Option Nat) (n : Nat) : Chars :=
  let digits := if n = 0 && precision = some 0 then [] else Nat.toDigits base n
  let digits := if isUpper then digits.map Char.toUpper else digits
  List.replicate (precision.getD 1 - digits.length) '0' ++ digits

/-- The text of a conversion with its argument. -/
def converted (t : Dialect) (p : Progress) (flags : Chars) (width : Nat) (precision : Option Nat)
    (letter : Char) (arg : Option Bytes) : Chars × Progress :=
  let zeros := flags.contains '0'
  match letter with
  | 's' =>
    let text := Latin.ofBytes (arg.getD [])
    (pad flags width false [] (match precision with | some n => text.take n | none => text), p)
  | 'c' =>
    (pad flags width false [] (Latin.ofBytes [(arg.getD []).headD 0]), p)
  | 'd' | 'i' =>
    let (n, p) := integerOf t p arg (-2 ^ 63) (2 ^ 63 - 1)
    let sign := if n < 0 then ['-'] else plusSign flags
    (pad flags width (zeros && precision.isNone) sign (wholeText 10 false precision n.natAbs), p)
  | 'u' | 'o' | 'x' | 'X' =>
    let (n, p) := integerOf t p arg (-(2 ^ 64 - 1)) (2 ^ 64 - 1)
    let n := (n % 2 ^ 64).toNat
    let base := if letter = 'u' then 10 else if letter = 'o' then 8 else 16
    let digits := wholeText base (letter = 'X') precision n
    let marked := flags.contains '#' && n ≠ 0
    let sign := if marked && base = 16 then ['0', letter] else []
    let digits := if flags.contains '#' && base = 8 && digits.head? ≠ some '0' then '0' :: digits
      else digits
    (pad flags width (zeros && precision.isNone) sign digits, p)
  | _ =>
    let (x, p) := quantityOf t p arg
    let sign := if x.isNegative then ['-'] else plusSign flags
    let text := x.text letter.toLower (precision.getD 6) (flags.contains '#')
    let isSpecial := x matches .infinity _ | .undefined _
    let text := if letter.isUpper then text.map Char.toUpper else text
    (pad flags width (zeros && !isSpecial) sign text, p)

/-! ## The format -/

/-- The letters of conversions. -/
def letters : Chars := "diouxXcsfFeEgG".toList

/-- A width or a precision at the front of a text. -/
def extent (s : Chars) : Option Extent × Chars :=
  match s with
  | '*' :: rest => (some .fromArgument, rest)
  | _ =>
    let digits := s.takeWhile Decimal.isDigit
    ((Numeral.digits? digits).map .given, s.drop digits.length)

/-- The conversion after a percent sign, and what follows it; or the text and the letter of one that
is not valid. -/
def directive (t : Dialect) (s : Chars) : Except (Chars × Option Char) (Directive × Chars) :=
  let flags := s.takeWhile fun c => "-+ 0#'".toList.contains c
  let (width, rest) := extent (s.drop flags.length)
  let (precision, rest) := match rest with
    | '.' :: rest =>
      let (precision, rest) := extent rest
      (some (precision.getD (.given 0)), rest)
    | _ => (none, rest)
  let rest := rest.dropWhile fun c => t.hasSizes && "hlLjtz".toList.contains c
  let refused := flags.flatMap t.ruledOut ++ if precision.isSome && t.warns then ['c'] else []
  match rest with
  | letter :: rest =>
    if letters.contains letter && !refused.contains letter then
      .ok (⟨flags, width, precision, letter⟩, rest)
    else .error (s.take (s.length - rest.length), some letter)
  | [] => .error (s, none)

/-- The number of a width or a precision, given its name. -/
def extentOf (t : Dialect) (p : Progress) (noun : String) : Option Extent → Option Int × Progress
  | none => (none, p)
  | some (.given n) => (some n, p)
  | some .fromArgument =>
    let (arg, p) := p.next
    let (n, p) := integerOf t p arg (-2 ^ 63) (2 ^ 63 - 1)
    match t.badExtent with
    | none => (some (n.bmod (2 ^ 32)), p)
    | some message =>
      if 2 ^ 31 ≤ n || (n < -2 ^ 31 && noun = "field width") then
        (none, p.abort (message noun (arg.getD [])) 1)
      else (some n, p)

/-- The longest text that a conversion can come to. -/
def longest : Nat := 2 ^ 31 - 2

/-- Carry out a conversion. -/
def Directive.run (t : Dialect) (d : Directive) (p : Progress) : Progress :=
  let (width, p) := extentOf t p "field width" d.width
  if p.stopped then p
  else
    let (precision, p) := extentOf t p "precision" d.precision
    if p.stopped then p
    else
      let width := width.getD 0
      let flags := if width < 0 then '-' :: d.flags else d.flags
      let precision := precision.bind fun n => if n < 0 then none else some n.toNat
      let (arg, p) := p.next
      if longest < max width.natAbs (precision.getD 0) then t.overlong p
      else
        let (text, p) := converted t p flags width.natAbs precision d.letter arg
        p.put (Latin.toBytes text)

/-- One pass over the format. The fuel bounds the characters that are read. -/
def pass (t : Dialect) : Nat → Chars → Progress → Progress
  | 0, _, p => p
  | _ + 1, [], p => p
  | fuel + 1, c :: rest, p =>
    if p.stopped then p
    else if c = '\\' then
      match Escape.meaning t.format rest with
      | .bytes b rest => pass t fuel rest (p.put b)
      | .stop => { p with stopped := true }
      | .fault message => p.abort (Bytes.ofString message) 1
      | .plain => pass t fuel rest (p.put [92])
    else if c = '%' then
      match rest with
      | '%' :: rest => pass t fuel rest (p.put [37])
      | 'b' :: rest =>
        let (arg, p) := p.next
        let (bytes, stopped) := Escape.expand t.argument (Latin.ofBytes (arg.getD []))
        pass t fuel rest { p.put bytes with stopped }
      | 'q' :: rest =>
        if t.warns then
          let (arg, p) := p.next
          pass t fuel rest (p.put (arg.elim [] Quoting.shellWord))
        else p.abort (t.badDirective ['%', 'q'] (some 'q')) t.badCode
      | _ =>
        match directive t rest with
        | .ok (d, rest) => pass t fuel rest (d.run t p)
        | .error (text, letter) => p.abort (t.badDirective ('%' :: text) letter) t.badCode
    else pass t fuel rest (p.put [Escape.byte c.toNat])

/-- Passes over the format as long as they use arguments and some are left. -/
def passes (t : Dialect) (format : Chars) : Nat → Progress → Progress
  | 0, p => p
  | fuel + 1, p =>
    let p := pass t (format.length + 1) format { p with used := false }
    if p.stopped || p.args.isEmpty || !p.used then p else passes t format fuel p

/-- What is written, what is complained of, and whether that counts. -/
def formatted (t : Dialect) (format : Bytes) (args : List Bytes) : Progress :=
  passes t (Latin.ofBytes format) (args.length + 1) { args }

end CommandExpr.Machine.Printf

namespace CommandExpr.Machine.Utility

/-- What a printer wrote, after its complaints were said. -/
def printed (t : Printf.Dialect) (name : String) (format : Bytes) (args : List Bytes) :
    Task Printf.Progress := do
  let p := Printf.formatted t format args
  for message in p.complaints.reverse do
    complain name [message]
  if !p.stopped && t.warns then
    if let excess :: _ := p.args then
      complain name [Bytes.ofString "warning: ignoring excess arguments, starting with ",
        cited excess]
  return p

/-- The arguments after a mark that ends the options. -/
def withoutMark (args : List Bytes) : List Bytes :=
  if args.head? = some (Bytes.ofString "--") then args.drop 1 else args

/-- Print arguments as a format tells. -/
def printf : Utility := fun i => do
  match withoutMark i.args with
  | [] => missingOperand i.name
  | format :: args =>
    let p ← printed Printf.wide i.name format args
    let code ← emit i.name p.written.reverse
    if p.isShort then
      complain i.name [Bytes.ofString "write error"]
      return 1
    return if p.code ≠ 0 then p.code else code

/-- Print arguments as a format tells, as the command that is built into the shell does. -/
def shellPrintf : Utility := fun i => do
  match withoutMark i.args with
  | [] =>
    complain i.name [Bytes.ofString "usage: printf format [arg ...]"]
    return 2
  | format :: args =>
    if i.args.head? = some format then
      if let 45 :: letter :: _ := format then
        complain i.name [Bytes.ofString "Illegal option -", [letter]]
        return 2
    let p ← printed Printf.narrow i.name format args
    let code ← emitTersely i.name "printf" p.written.reverse
    return if p.code ≠ 0 then p.code else code

end CommandExpr.Machine.Utility
