import CommandExpr.Machine.Utility.Pattern

/-!
# Conditions

The utilities whose arguments are an expression: tests of texts, numbers and files, which end with
code zero if they hold, and computations, which write their value.

## Main definitions

* `Condition.ofArgs` — the condition that arguments spell
* `Utility.test` — decides it
* `Utility.expr` — computes
-/

namespace CommandExpr.Machine

/-- A test with one operand. -/
inductive UnaryTest where
  | isEmpty | isNotEmpty | exists | isFile | isDirectory | isLink | hasSize
  /-- Do the permission bits of its owner allow this? -/
  | may (bits : Nat)
  /-- Are these permission bits set? -/
  | hasMode (bits : Nat)
  | isPipe | isDevice
  /-- Does the descriptor lead to a terminal? -/
  | isTerminal
  | never
  deriving DecidableEq

/-- A test with two operands. -/
inductive BinaryTest where
  | same | different | before | after
  | number (holds : Ordering → Bool)
  | sameFile
  /-- Was the first file changed after the second one, or the second one after the first? No times
  are kept, so neither is ever so. -/
  | newer | older

/-- A condition. -/
inductive Condition where
  | constant (b : Bool)
  | unary (t : UnaryTest) (x : Bytes)
  | binary (t : BinaryTest) (x y : Bytes)
  | not (c : Condition)
  | and (c d : Condition)
  | or (c d : Condition)

namespace Condition

/-- The tests with one operand. -/
def unaryTests : List (String × UnaryTest) :=
  [("-z", .isEmpty), ("-n", .isNotEmpty), ("-e", .exists), ("-f", .isFile), ("-d", .isDirectory),
    ("-h", .isLink), ("-L", .isLink), ("-s", .hasSize), ("-r", .may 4), ("-w", .may 2),
    ("-x", .may 1), ("-t", .isTerminal), ("-p", .isPipe), ("-S", .never), ("-b", .never),
    ("-u", .hasMode 0o4000), ("-g", .hasMode 0o2000), ("-k", .hasMode 0o1000), ("-c", .isDevice),
    ("-O", .exists), ("-G", .exists)]

/-- The tests with two operands. -/
def binaryTests : List (String × BinaryTest) :=
  [("=", .same), ("==", .same), ("!=", .different), ("<", .before), (">", .after),
    ("-eq", .number (· = .eq)), ("-ne", .number (· ≠ .eq)), ("-lt", .number (· = .lt)),
    ("-le", .number (· ≠ .gt)), ("-gt", .number (· = .gt)), ("-ge", .number (· ≠ .lt)),
    ("-ef", .sameFile), ("-nt", .newer), ("-ot", .older)]

/-- The test of a name. -/
def unary? (s : Bytes) : Option UnaryTest :=
  (unaryTests.find? fun (n, _) => Bytes.ofString n = s).map (·.2)

/-- The test of a name. -/
def binary? (s : Bytes) : Option BinaryTest :=
  (binaryTests.find? fun (n, _) => Bytes.ofString n = s).map (·.2)

/-- Is an argument a certain word? -/
def isWord (w : String) (s : Bytes) : Bool := Bytes.ofString w = s

/-- What a part of the arguments spells, and what follows it; or a complaint. -/
abbrev Reading := Except Bytes (Condition × List Bytes)

/-- A complaint about an argument, which is named unless it is empty. -/
def refuse {α : Type} (s : Bytes) (words : String) : Except Bytes α :=
  .error ((if s.isEmpty then [] else s ++ Bytes.ofString ": ") ++ Bytes.ofString words)

/-- A disjunction, a conjunction, or a single condition, by level. -/
def ofLevel : Nat → Nat → List Bytes → Reading
  | 0, _, _ => .error (Bytes.ofString "argument expected")
  | fuel + 1, 0, args => do
    let (c, rest) ← ofLevel fuel 1 args
    match rest with
    | s :: rest' =>
      if isWord "-o" s then
        let (d, rest) ← ofLevel fuel 0 rest'
        return (.or c d, rest)
      else return (c, rest)
    | [] => return (c, [])
  | fuel + 1, 1, args => do
    let (c, rest) ← ofLevel fuel 2 args
    match rest with
    | s :: rest' =>
      if isWord "-a" s then
        let (d, rest) ← ofLevel fuel 1 rest'
        return (.and c d, rest)
      else return (c, rest)
    | [] => return (c, [])
  | fuel + 1, _, args =>
    match args with
    | [] => .error (Bytes.ofString "argument expected")
    | s :: rest =>
      match rest with
      | t :: y :: rest' =>
        match binary? t with
        | some b => .ok (.binary b s y, rest')
        | none => single fuel s rest
      | _ => single fuel s rest
where
  /-- A condition that does not start with two operands. -/
  single (fuel : Nat) (s : Bytes) (rest : List Bytes) : Reading :=
    if isWord "!" s && !rest.isEmpty then do
      let (c, rest) ← ofLevel fuel 2 rest
      return (.not c, rest)
    else if isWord "(" s && !rest.isEmpty then do
      let (c, rest) ← ofLevel fuel 0 rest
      match rest with
      | t :: rest => if isWord ")" t then return (c, rest) else refuse t "closing paren expected"
      | [] => .error (Bytes.ofString "closing paren expected")
    else match unary? s, rest with
      | some t, x :: rest => .ok (.unary t x, rest)
      | _, _ => .ok (.constant (!s.isEmpty), rest)

/-- The condition that arguments spell. Few arguments are read by their number. -/
def ofArgs (args : List Bytes) : Except Bytes Condition :=
  let general : Except Bytes Condition := do
    let (c, rest) ← ofLevel (4 * args.length + 4) 0 args
    if rest.isEmpty then return c
    refuse (args.getD (args.length - rest.length - 1) []) "unexpected operator"
  match args with
  | [] => .ok (.constant false)
  | [s] => .ok (.constant (!s.isEmpty))
  | [n, s] =>
    if isWord "!" n then .ok (.constant s.isEmpty)
    else match unary? n with
      | some t => .ok (.unary t s)
      | none =>
        if (binary? s).isSome then refuse s "argument expected"
        else refuse n "unexpected operator"
  | [x, t, y] =>
    match binary? t with
    | some b => .ok (.binary b x y)
    | none =>
      if isWord "-a" t then .ok (.constant (!x.isEmpty && !y.isEmpty))
      else if isWord "-o" t then .ok (.constant (!x.isEmpty || !y.isEmpty))
      else if isWord "(" x && isWord ")" y then .ok (.constant (!t.isEmpty))
      else general
  | _ => general

/-- The number that an operand spells. -/
def numberOf (s : Bytes) : Except Bytes Int :=
  let isBlank (c : Char) : Bool := CharClass.space.holds c
  let text := (((Latin.ofBytes s).dropWhile isBlank).reverse.dropWhile isBlank).reverse
  match Numeral.integer? text with
  | some n => .ok n
  | none => .error (Bytes.ofString "Illegal number: " ++ s)

/-- What is known about the file of a path, links followed. -/
def fileOf (path : Bytes) (follow : Bool) : Task (Option FileInfo) := do
  return (← Task.info path follow).toOption

/-- Does a test of one operand hold? -/
def unaryHolds (t : UnaryTest) (x : Bytes) : Task Bool := do
  let node := (← fileOf x (t ≠ .isLink)).map (·.node)
  match t with
  | .isEmpty => return x.isEmpty
  | .isNotEmpty => return !x.isEmpty
  | .exists => return node.isSome
  | .isFile => return node.any fun
      | .file .. | .image _ => true
      | _ => false
  | .isDirectory => return node.any (·.isDirectory)
  | .isLink => return node.any fun
      | .link _ => true
      | _ => false
  | .hasSize => return node.any fun
      | .file data _ => data.size ≠ 0
      | .directory .. | .image _ => true
      | _ => false
  | .may bits => return node.any (·.allows bits)
  | .hasMode bits => return node.any (·.mode &&& bits ≠ 0)
  | .isPipe => return node.any (· = .pipe)
  | .isDevice => return node.any fun
      | .device _ => true
      | _ => false
  | .isTerminal | .never => return false

/-- Is a text before another one? -/
def isBefore (x y : Bytes) : Bool :=
  match x, y with
  | _, [] => false
  | [], _ => true
  | a :: as, b :: bs => a < b || (a = b && isBefore as bs)

/-- Does a test of two operands hold? -/
def binaryHolds (t : BinaryTest) (x y : Bytes) : Task (Except Bytes Bool) := do
  match t with
  | .same => return .ok (x = y)
  | .different => return .ok (x ≠ y)
  | .before => return .ok (isBefore x y)
  | .after => return .ok (isBefore y x)
  | .number p => return do return p (compare (← numberOf x) (← numberOf y))
  | .sameFile =>
    let i ← fileOf x true
    let j ← fileOf y true
    return .ok (i.isSome && i.map (·.id) = j.map (·.id))
  | .newer | .older => return .ok false

/-- Does a condition hold? -/
def decide : Condition → Task (Except Bytes Bool)
  | constant b => return .ok b
  | unary t x => return .ok (← unaryHolds t x)
  | binary t x y => binaryHolds t x y
  | not c => return (← decide c).map (!·)
  | and c d => do
    match ← decide c with
    | .ok true => decide d
    | r => return r
  | or c d => do
    match ← decide c with
    | .ok false => decide d
    | r => return r

end Condition

namespace Utility

/-- Decide a condition. -/
def test : Utility := fun i => do
  match Condition.ofArgs i.args with
  | .error message =>
    complain i.name [message]
    return 2
  | .ok c =>
    match ← c.decide with
    | .error message =>
      complain i.name [message]
      return 2
    | .ok b => return if b then 0 else 1

/-- Decide a condition that the last argument closes. -/
def bracket : Utility := fun i => do
  if i.args.getLast? = some (Bytes.ofString "]") then test { i with args := i.args.dropLast }
  else
    complain i.name [Bytes.ofString "missing ", cited (Bytes.ofString "]")]
    return 2

/-! ## Computing -/

/-- The operators of computations, the weakest ones first. -/
def exprLevels : List (List String) :=
  [["|"], ["&"], ["<", "<=", "=", "==", "!=", ">=", ">"], ["+", "-"], ["*", "/", "%"], [":"]]

/-- Is a value zero or empty? -/
def isNull (x : Bytes) : Bool :=
  x.isEmpty || Numeral.integer? (Latin.ofBytes x) = some 0

/-- The text of a number. -/
def numberText (n : Int) : Bytes := Bytes.ofString (toString n)

/-- What a text matches at its front: the part that the first group of the pattern stands for, or
else the number of characters. -/
def matched (x y : Bytes) : Except String Bytes := do
  let s := (Latin.ofBytes x).toArray
  let p ← Pattern.ofText .basic (Latin.ofBytes y)
  if !p.hasGroup then return numberText ((p.stops s false 0).max?.getD 0)
  match (p.longest? s false 0).bind fun t => t.2.lookup 1 with
  | some (i, j) => return Latin.toBytes (s.extract i j).toList
  | none => return []

/-- The value of an operator between two values. -/
def applyExpr (op : String) (x y : Bytes) : Except String Bytes :=
  let truth (b : Bool) : Except String Bytes := .ok (Bytes.ofString (if b then "1" else "0"))
  let number (s : Bytes) : Except String Int :=
    match Numeral.integer? (Latin.ofBytes s) with
    | some n => .ok n
    | none => .error "non-integer argument"
  let order : Ordering :=
    match Numeral.integer? (Latin.ofBytes x), Numeral.integer? (Latin.ofBytes y) with
    | some a, some b => compare a b
    | _, _ => if x = y then .eq else if Condition.isBefore x y then .lt else .gt
  let arithmetic (f : Int → Int → Int) : Except String Bytes := do
    return numberText (f (← number x) (← number y))
  match op with
  | "|" => .ok (if !isNull x then x else if !isNull y then y else Bytes.ofString "0")
  | "&" => .ok (if isNull x || isNull y then Bytes.ofString "0" else x)
  | "<" => truth (order = .lt)
  | "<=" => truth (order ≠ .gt)
  | "=" | "==" => truth (order = .eq)
  | "!=" => truth (order ≠ .eq)
  | ">=" => truth (order ≠ .lt)
  | ">" => truth (order = .gt)
  | "+" => arithmetic (· + ·)
  | "-" => arithmetic (· - ·)
  | "*" => arithmetic (· * ·)
  | "/" | "%" => do
    let a ← number x
    let b ← number y
    if b = 0 then throw "division by zero"
    return numberText (if op = "/" then a.tdiv b else a.tmod b)
  | _ => matched x y

/-- The value at the front of arguments by level, and what follows it; the value so far is carried
along. -/
def evalExpr : Nat → Nat → Option Bytes → List Bytes → Except String (Bytes × List Bytes)
  | 0, _, _, _ => .error "syntax error"
  | fuel + 1, level, none, args =>
    if level < exprLevels.length then do
      let (x, rest) ← evalExpr fuel (level + 1) none args
      evalExpr fuel level (some x) rest
    else match args with
      | [] => .error "syntax error: missing argument"
      | s :: rest =>
        if Condition.isWord "(" s then do
          let (x, rest) ← evalExpr fuel 0 none rest
          match rest with
          | t :: rest =>
            if Condition.isWord ")" t then return (x, rest)
            else throw "syntax error: expecting ')'"
          | [] => throw "syntax error: expecting ')'"
        else if Condition.isWord "length" s && !rest.isEmpty then do
          let (x, rest) ← evalExpr fuel exprLevels.length none rest
          return (numberText x.length, rest)
        else if let (true, t :: p :: rest) := (Condition.isWord "match" s, rest) then
          return (← matched t p, rest)
        else if let (true, t :: p :: rest) := (Condition.isWord "index" s, rest) then
          let place : Nat := (t.findIdx? p.contains).elim 0 (· + 1)
          return (numberText place, rest)
        else if let (true, t :: p :: n :: rest) := (Condition.isWord "substr" s, rest) then
          let number (b : Bytes) : Nat :=
            ((Numeral.integer? (Latin.ofBytes b)).getD 0).toNat
          let part := if number p = 0 then [] else (t.drop (number p - 1)).take (number n)
          return (part, rest)
        else .ok (s, rest)
  | fuel + 1, level, some x, args =>
    match args with
    | [] => .ok (x, [])
    | s :: rest =>
      match (exprLevels.getD level []).find? fun op => Bytes.ofString op = s with
      | none => .ok (x, args)
      | some op => do
        let (y, rest) ← evalExpr fuel (level + 1) none rest
        evalExpr fuel level (some (← applyExpr op x y)) rest

/-- Compute a value and write it. -/
def expr : Utility := fun i => do
  if i.args.isEmpty then
    let _ ← missingOperand i.name
    return 2
  else
    let result := do
      let (x, rest) ← evalExpr (16 * i.args.length + 16) 0 none i.args
      if let extra :: _ := rest then
        throw s!"syntax error: unexpected argument '{String.ofList (Latin.ofBytes extra)}'"
      return x
    match result with
    | .error message =>
      complain i.name [Bytes.ofString message]
      return 2
    | .ok x =>
      let code ← emit i.name (x ++ [Bytes.newline])
      return if code ≠ 0 then 3 else if isNull x then 1 else 0

end Utility

end CommandExpr.Machine
