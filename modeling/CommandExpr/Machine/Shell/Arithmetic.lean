import CommandExpr.Machine.Shell.Token
import CommandExpr.Machine.Utility.Escape

/-!
# Computations in scripts

Whole numbers of 64 bits with the usual operators, and variables that can be assigned.

## Main definitions

* `Arithmetic` — a computation
* `Arithmetic.ofChars` — the computation that a text spells
* `Arithmetic.eval` — its value, and the assignments that it makes
-/

namespace CommandExpr.Machine.Shell

/-- A computation. -/
inductive Arithmetic where
  | number (n : Int)
  | variable_ (name : Chars)
  | unary (op : Char) (x : Arithmetic)
  | binary (op : String) (x y : Arithmetic)
  | cond (test yes no : Arithmetic)
  /-- A variable gets a value, or its value joined with another one by an operator. -/
  | assign (name : Chars) (op : Option String) (x : Arithmetic)

namespace Arithmetic

/-! ## Reading -/

/-- A token of a computation. -/
inductive Symbol where
  | number (n : Int)
  | name (s : Chars)
  | op (s : String)
  deriving DecidableEq

/-- The operators, longer ones first. -/
def operators : List String :=
  ["<<=", ">>=", "&&", "||", "==", "!=", "<=", ">=", "<<", ">>", "+=", "-=", "*=", "/=", "%=",
    "&=", "|=", "^=", "+", "-", "*", "/", "%", "<", ">", "&", "|", "^", "!", "~", "?", ":", "=",
    "(", ")"]

/-- The greatest number. -/
def maxNumber : Int := 2 ^ 63 - 1

/-- The number at the front of a text, in the base that its first characters tell. -/
def numberFront (s : Chars) : Int × Chars :=
  let read (base : Nat) (digits : Chars) : Int × Chars :=
    let (_, n, rest) := Escape.digits base digits.length 0 digits
    (n, rest)
  match s with
  | '0' :: x :: rest => if x = 'x' || x = 'X' then read 16 rest else read 8 s
  | _ => read 10 s

/-- The number that the whole of a text spells, with an optional sign and blanks around it. -/
def numberOf? (s : Chars) : Option Int :=
  let isSpace (c : Char) : Bool := c = ' ' || ('\t' ≤ c && c ≤ '\r')
  let body := ((s.dropWhile isSpace).reverse.dropWhile isSpace).reverse
  let (sign, digits) : Int × Chars := match body with
    | '-' :: rest => (-1, rest)
    | '+' :: rest => (1, rest)
    | _ => (1, body)
  match digits with
  | [] => if body.isEmpty then some 0 else none
  | c :: _ =>
    if c.isDigit then
      let (n, rest) := numberFront digits
      let value := sign * n
      if rest.isEmpty && -maxNumber - 1 ≤ value && value ≤ maxNumber then some value else none
    else none

/-- The tokens of a text, up to a character that starts none; the fuel bounds their number. -/
def symbols : Nat → Chars → List Symbol
  | 0, _ => []
  | fuel + 1, s =>
    match s.dropWhile fun c => c = ' ' || ('\t' ≤ c && c ≤ '\r') with
    | [] => []
    | c :: rest =>
      let s := c :: rest
      if c.isDigit then
        let (n, rest) := numberFront s
        .number (min n maxNumber) :: symbols fuel rest
      else if Token.startsName c then
        let name := s.takeWhile Token.isNameChar
        .name name :: symbols fuel (s.drop name.length)
      else match operators.find? fun o => o.toList.isPrefixOf s with
        | some o => .op o :: symbols fuel (s.drop o.length)
        | none => [.op (String.singleton c)]

/-- The binary operators, the weakest ones first. -/
def levels : List (List String) :=
  [["||"], ["&&"], ["|"], ["^"], ["&"], ["==", "!="], ["<=", ">=", "<", ">"], ["<<", ">>"],
    ["+", "-"], ["*", "/", "%"]]

/-- The operators that assign, each with the one that it joins values by. -/
def assignments : List (String × Option String) :=
  [("=", none), ("+=", some "+"), ("-=", some "-"), ("*=", some "*"), ("/=", some "/"),
    ("%=", some "%"), ("<<=", some "<<"), (">>=", some ">>"), ("&=", some "&"), ("|=", some "|"),
    ("^=", some "^")]

/-- A reading of tokens. -/
abbrev Reading := StateT (List Symbol) (Except String)

/-- Take an operator if one of some comes next. -/
def takeOne (ops : List String) : Reading (Option String) := do
  match (← get).head? with
  | some (.op o) =>
    if ops.contains o then
      modify (·.drop 1)
      return some o
    else return none
  | _ => return none

mutual

/-- An assignment, a choice, or less. -/
def whole : Nat → Reading Arithmetic
  | 0 => throw "too deep"
  | fuel + 1 => do
    let assigned := match ← get with
      | .name n :: .op o :: rest => (assignments.lookup o).map fun op => (n, op, rest)
      | _ => none
    match assigned with
    | some (n, op, rest) =>
      set rest
      return .assign n op (← whole fuel)
    | none =>
      let test ← level fuel 0
      if (← takeOne ["?"]).isSome then
        let yes ← whole fuel
        if (← takeOne [":"]).isNone then throw "expecting ':'"
        return .cond test yes (← whole fuel)
      else return test

/-- Operands joined by the operators of a level and the stronger ones. -/
def level : Nat → Nat → Reading Arithmetic
  | 0, _ => throw "too deep"
  | fuel + 1, n => do
    if levels.length ≤ n then single fuel
    else levelFrom fuel n (← level fuel (n + 1))

/-- Further operands of a level. -/
def levelFrom : Nat → Nat → Arithmetic → Reading Arithmetic
  | 0, _, x => return x
  | fuel + 1, n, x => do
    match ← takeOne (levels.getD n []) with
    | some o => levelFrom fuel n (.binary o x (← level fuel (n + 1)))
    | none => return x

/-- An operand. -/
def single : Nat → Reading Arithmetic
  | 0 => throw "too deep"
  | fuel + 1 => do
    match ← get with
    | .number n :: rest =>
      set rest
      return .number n
    | .name n :: rest =>
      set rest
      return .variable_ n
    | .op "(" :: rest =>
      set rest
      let x ← whole fuel
      if (← takeOne [")"]).isNone then throw "expecting ')'"
      return x
    | .op o :: rest =>
      match o.toList with
      | [c] =>
        if "-+!~".toList.contains c then
          set rest
          return .unary c (← single fuel)
        else throw "expecting primary"
      | _ => throw "expecting primary"
    | [] => throw "expecting primary"

end

/-- The computation that a text spells; an empty text is zero. -/
def ofChars (s : Chars) : Except String Arithmetic := do
  let all := symbols (s.length + 1) s
  if all.isEmpty then return .number 0
  let (x, rest) ← (whole (32 * all.length + 32)).run all
  if rest.isEmpty then return x else throw "expecting EOF"

/-! ## Values -/

/-- Why a computation has no value. -/
inductive Failure where
  /-- A variable holds what is no number. -/
  | badNumber (value : Chars)
  | fault (message : String)

/-- A number wrapped into 64 bits. -/
def wrap (n : Int) : Int := n.bmod (2 ^ 64)

/-- A truth value as a number. -/
def truth (b : Bool) : Int := if b then 1 else 0

/-- Join the bits of two numbers. -/
def bitwise (f : Nat → Nat → Nat) (x y : Int) : Int :=
  wrap (f (x % 2 ^ 64).toNat (y % 2 ^ 64).toNat)

/-- The value of a binary operator between two values. -/
def apply (op : String) (x y : Int) : Except Failure Int :=
  match op with
  | "+" => .ok (wrap (x + y))
  | "-" => .ok (wrap (x - y))
  | "*" => .ok (wrap (x * y))
  | "/" => if y = 0 then .error (.fault "division by zero") else .ok (wrap (x.tdiv y))
  | "%" => if y = 0 then .error (.fault "division by zero") else .ok (wrap (x.tmod y))
  | "<<" => .ok (wrap (x * 2 ^ (y % 64).toNat))
  | ">>" => .ok (x.fdiv (2 ^ (y % 64).toNat))
  | "<" => .ok (truth (x < y))
  | "<=" => .ok (truth (x ≤ y))
  | ">" => .ok (truth (y < x))
  | ">=" => .ok (truth (y ≤ x))
  | "==" => .ok (truth (x = y))
  | "!=" => .ok (truth (x ≠ y))
  | "&" => .ok (bitwise (· &&& ·) x y)
  | "|" => .ok (bitwise (· ||| ·) x y)
  | "^" => .ok (bitwise (· ^^^ ·) x y)
  | "&&" => .ok (truth (x ≠ 0 && y ≠ 0))
  | "||" => .ok (truth (x ≠ 0 || y ≠ 0))
  | _ => .error (.fault "expecting EOF")

/-- The value of a computation, given those of variables; the state is the assignments that were
made, the last one first. -/
def eval (look : Chars → Except Failure Int) :
    Arithmetic → StateT (List (Chars × Int)) (Except Failure) Int
  | number n => return wrap n
  | variable_ name => lookUp name
  | unary op x => do
    let n ← eval look x
    return if op = '-' then wrap (-n) else if op = '!' then truth (n = 0)
      else if op = '~' then -n - 1 else n
  | binary op x y => do
    let a ← eval look x
    if op = "&&" && a = 0 then return 0
    if op = "||" && a ≠ 0 then return 1
    apply op a (← eval look y)
  | cond test yes no => do
    if (← eval look test) ≠ 0 then eval look yes else eval look no
  | assign name op x => do
    let n ← eval look x
    let n ← match op with
      | none => pure n
      | some o => do apply o (← lookUp name) n
    modify ((name, n) :: ·)
    return n
where
  /-- The value of a variable, one that was just assigned first. -/
  lookUp (name : Chars) : StateT (List (Chars × Int)) (Except Failure) Int := do
    match (← get).lookup name with
    | some n => return n
    | none => look name

end Arithmetic

end CommandExpr.Machine.Shell
