import CommandExpr.Binary64.Reading
import CommandExpr.Expression
import CommandExpr.Failure

/-!
# Word lists

An expression written as a flat list of words. Commands are separated by operator words: `|` binds
tightest, then `+`, then `;`, and each groups to the left. The first word of a command is its path,
taken as it is. In typed mode an argument word may announce a kind by a letter and a colon.

| word      | argument                     |
|-----------|------------------------------|
| `i:42`    | the whole number 42          |
| `f:1.5`   | the number 1.5               |
| `b:3`     | the truth of the low bit of 3 |
| `c:x`     | the byte of `x`              |
| `s:text`  | the text `text`              |
| `t9:text` | the pair of tag 9 and `text` |

Any other word is plain text.

## Main definitions

* `Words.typed` — the argument that a word stands for in typed mode
* `Words.parse` — the expression that a word list stands for
* `Words.ofExpression` — the word list of an expression whose arguments are plain texts
-/

namespace CommandExpr.Words

/-- The argument that a word stands for in typed mode. -/
def typed (word : String) : Except Failure Argument :=
  let chars := word.toList
  let announced := chars.takeWhile (· ≠ ':')
  match chars.dropWhile (· ≠ ':') with
  | [] => .ok (.text word)
  | _ :: body =>
    let read {α : Type} (value? : Option α) (payload : α → Payload) (kind : Kind)
        (what : String) : Except Failure Argument :=
      match value? with
      | some v => .ok (.ofRaw kind.tag (payload v))
      | none => .error (.invalidWord word what)
    match announced with
    | ['i'] => read (Numeral.int64? body) .int .int "integer"
    | ['f'] => read (Binary64.ofText? body) .float .float "float"
    | ['b'] => read (Numeral.int64? body) .int .bool "boolean"
    | ['c'] =>
      let byte? := match Bytes.ofString (String.ofList body) with
        | [b] => some b
        | _ => none
      read byte? .byte .char "character"
    | ['s'] => .ok (.ofRaw Kind.str.tag (.text (String.ofList body)))
    | 't' :: tag =>
      match Numeral.byte? tag with
      | some tag => .ok (.ofRaw tag (.text (String.ofList body)))
      | none => .ok (.text word)
    | _ => .ok (.text word)

/-- The argument that a word stands for. -/
def argument (isTyped : Bool) (word : String) : Except Failure Argument :=
  if isTyped then typed word else .ok (.text word)

/-- The command that the words between two operators stand for. -/
def command (isTyped : Bool) : List String → Except Failure Expression
  | [] => .error .missingCommand
  | path :: args => do
    let args ← args.mapM (argument isTyped)
    return .simple ⟨path, args⟩

/-- The pieces between the words that equal `sep`; one more than there are such words. -/
def splitAt (sep : String) : List String → List String × List (List String)
  | [] => ([], [])
  | w :: rest =>
    let (first, others) := splitAt sep rest
    if w = sep then ([], first :: others) else (w :: first, others)

/-- The operators, from the loosest to the tightest. -/
def precedence : List Operator := [.sequence, .concat, .pipe]

/-- The expression of a word list, split at the loosest of the given operators first. -/
def parseLevel (isTyped : Bool) : List Operator → List String → Except Failure Expression
  | [], words => command isTyped words
  | op :: tighter, words => do
    let (first, others) := splitAt op.symbol words
    let start ← parseLevel isTyped tighter first
    others.foldlM (fun left segment => do
      let right ← parseLevel isTyped tighter segment
      return .binary op left right) start

/-- The expression that a word list stands for. -/
def parse (isTyped : Bool) (words : List String) : Except Failure Expression :=
  parseLevel isTyped precedence words

/-- The word of a plain text argument. -/
def ofArgument? : Argument → Option String
  | .typed (.str s) => some s
  | _ => none

/-- The words of an expression, in order, the operator words put back between them; none if some
argument is no plain text. -/
def ofExpression : Expression → Option (List String)
  | .simple c => (c.args.mapM ofArgument?).map (c.path :: ·)
  | .binary op left right => do
    let l ← ofExpression left
    let r ← ofExpression right
    return l ++ op.symbol :: r

end CommandExpr.Words
