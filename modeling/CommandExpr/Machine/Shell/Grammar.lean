import CommandExpr.Machine.Shell.Token

/-!
# The grammar of scripts

Commands are read from tokens one line at a time, so that what stands before a fault is run. Words
such as `if` are reserved only where a command can start.

## Main definitions

* `Fault` — what is wrong with a script, and where
* `Grammar.line` — the commands of the next line
-/

namespace CommandExpr.Machine.Shell

/-- What is wrong with a script. -/
structure Fault where
  /-- The number of the line. -/
  line : Nat
  /-- What is wrong. -/
  message : String

/-- Words that stand for texts where a command starts. -/
abbrev Aliases := List (Chars × Chars)

/-- A reading of tokens: it takes some from the front, or meets a fault. -/
abbrev Reading := ReaderT Aliases (StateT (List Token) (Except Fault))

namespace Grammar

/-- The words that are reserved where a command can start. -/
def reserved : List String :=
  ["if", "then", "else", "elif", "fi", "while", "until", "do", "done", "for", "case", "esac",
    "\x7b", "\x7d", "!"]

/-- The reserved words that end a list of commands. -/
def closers : List String := ["then", "else", "elif", "fi", "do", "done", "esac", "\x7d"]

/-! ## Looking at tokens -/

/-- The text of a token that is a word without quotes and expansions. -/
def bare? (t : Token) : Option String :=
  match t.kind with
  | .word [.text s false] => some (String.ofList s)
  | _ => none

/-- Is the next token a certain reserved word? -/
def startsWord (word : String) : List Token → Bool
  | t :: _ => bare? t = some word
  | [] => false

/-- Is the next token a certain operator? -/
def startsOp (op : String) : List Token → Bool
  | ⟨.op s, _⟩ :: _ => s = op
  | _ => false

/-- The tokens after line ends. -/
def afterLines : List Token → List Token
  | t :: rest =>
    match t.kind with
    | .op "\n" => afterLines rest
    | _ => t :: rest
  | [] => []

/-- Do tokens end a list of commands? -/
def isClosed (ts : List Token) : Bool :=
  startsOp ")" ts || startsOp ";;" ts || ts.isEmpty
    || (ts.head?.bind bare?).any closers.contains

/-- How a token is named when it is not expected. -/
def nameOf (t : Token) : String :=
  match t.kind with
  | .op "\n" => "newline"
  | .op s => s!"\"{s}\""
  | .redirect .. | .document _ => "redirection"
  | .fault message => message
  | .word _ =>
    match bare? t with
    | some s => if reserved.contains s then s!"\"{s}\"" else "word"
    | none => "word"

/-! ## Taking tokens -/

/-- Is the next token a certain reserved word? -/
def isWord (word : String) : Reading Bool := return startsWord word (← get)

/-- Is the next token a certain operator? -/
def isOp (op : String) : Reading Bool := return startsOp op (← get)

/-- Take a token. -/
def skip : Reading Unit := modify (·.drop 1)

/-- Take line ends. -/
def skipLines : Reading Unit := modify afterLines

/-- Take an operator if it comes next. -/
def takeOp (op : String) : Reading Bool := do
  let found ← isOp op
  if found then skip
  return found

/-- The tokens with the text that their first word stands for in its place. A text that ends in a
blank lets the word after it stand for a text, too. No word stands for a text that starts with it:
such words are `used`; the fuel bounds how often words are replaced. -/
def unaliased (aliases : Aliases) : Nat → List Chars → List Token → List Token
  | 0, _, ts => ts
  | _ + 1, _, [] => []
  | fuel + 1, used, t :: rest =>
    let meaning := (bare? t).bind fun s =>
      if used.contains s.toList then none else (aliases.lookup s.toList).map fun a => (s.toList, a)
    match meaning with
    | none => t :: rest
    | some (name, text) =>
      let body := (Token.ofScript text).map fun b => { b with line := t.line }
      let goesOn := text.getLast?.any Token.isBlank
      let rest := if goesOn then unaliased aliases fuel [] rest else rest
      unaliased aliases fuel (name :: used) (body ++ rest)

/-- Put the text that the next word stands for in its place. -/
def expandAlias : Reading Unit := do
  let aliases ← read
  if !aliases.isEmpty then
    modify fun ts => unaliased aliases (ts.length + aliases.length + 1) [] ts

/-- Take a reserved word if it comes next. -/
def takeWord (word : String) : Reading Bool := do
  let found ← isWord word
  if found then skip
  return found

/-- The fault of tokens that go on as they should not; `last` is the number of the last line. -/
def unexpected {α : Type} (last : Nat) (expecting : Option String) : Reading α := do
  let hint := match expecting with
    | some s => s!" (expecting \"{s}\")"
    | none => ""
  match (← get).head? with
  | some ⟨.fault message, line⟩ => throw ⟨line, message⟩
  | some t => throw ⟨t.line, s!"{nameOf t} unexpected{hint}"⟩
  | none => throw ⟨last, s!"end of file unexpected{hint}"⟩

/-- Take a reserved word that has to come next. -/
def expectWord (last : Nat) (word : String) : Reading Unit := do
  if !(← takeWord word) then unexpected last (some word)

/-- Take an operator that has to come next. -/
def expectOp (last : Nat) (op : String) : Reading Unit := do
  if !(← takeOp op) then unexpected last (some op)

/-! ## Simple commands -/

/-- A redirection, if one comes next. -/
def redirect? (last : Nat) : Reading (Option Redirect) := do
  match (← get).head?.map Token.kind with
  | some (.document r) =>
    skip
    return some r
  | some (.redirect fd kind) =>
    skip
    match (← get).head?.map Token.kind with
    | some (.word w) =>
      skip
      return some ⟨fd, kind, w⟩
    | _ => unexpected last none
  | _ => return none

/-- The redirections that come next; the fuel bounds their number. -/
def redirects (last : Nat) : Nat → Reading (List Redirect)
  | 0 => return []
  | fuel + 1 => do
    match ← redirect? last with
    | none => return []
    | some r => return r :: (← redirects last fuel)

/-- The name and the value of a word that assigns. -/
def assignment? (w : Word) : Option (Chars × Word) :=
  match w with
  | .text s false :: rest =>
    let name := s.takeWhile (· ≠ '=')
    if Token.isName name && name.length < s.length then
      let value := s.drop (name.length + 1)
      some (name, if value.isEmpty then rest else .text value false :: rest)
    else none
  | _ => none

/-- The parts of a simple command: assignments, words and redirections, the last ones first. -/
structure Parts where
  /-- The assignments. -/
  assignments : List (Chars × Word) := []
  /-- The words. -/
  words : List Word := []
  /-- The redirections. -/
  redirects : List Redirect := []

/-- The parts of a simple command; the fuel bounds their number. -/
def parts (last : Nat) : Nat → Parts → Reading Parts
  | 0, p => return p
  | fuel + 1, p => do
    match ← redirect? last with
    | some r => parts last fuel { p with redirects := r :: p.redirects }
    | none =>
      match (← get).head?.map Token.kind with
      | some (.word w) =>
        skip
        match (if p.words.isEmpty then assignment? w else none) with
        | some a => parts last fuel { p with assignments := a :: p.assignments }
        | none => parts last fuel { p with words := w :: p.words }
      | _ => return p

/-- A command without structure. -/
def simple (last : Nat) : Reading Command := do
  let before := (← get).length
  let line := ((← get).head?.map Token.line).getD last
  let p ← parts last before {}
  if (← get).length = before then unexpected last none
  return .simple line p.assignments.reverse p.words.reverse p.redirects.reverse

/-! ## Structure -/

/-- The words that come next; the fuel bounds their number. -/
def words : Nat → Reading (List Word)
  | 0 => return []
  | fuel + 1 => do
    match (← get).head?.map Token.kind with
    | some (.word w) =>
      skip
      return w :: (← words fuel)
    | _ => return []

/-- The patterns of a branch, and the parenthesis after them; the fuel bounds their number. -/
def patterns (last : Nat) : Nat → Reading (List Word)
  | 0 => return []
  | fuel + 1 => do
    match (← get).head?.map Token.kind with
    | some (.word w) =>
      skip
      if ← takeOp "|" then return w :: (← patterns last fuel)
      expectOp last ")"
      return [w]
    | _ => unexpected last (some ")")

/-- The command in the place of one that is missing at the end of a script. -/
def nothing (last : Nat) : Command := .simple last [] [] []

mutual

/-- Commands one after the other, up to what ends them. In a single line a line end does, too. -/
def list (last : Nat) (isLine : Bool) : Nat → Reading Command
  | 0 => unexpected last none
  | fuel + 1 => do
    if !isLine then skipLines
    if (← get).isEmpty then return nothing last
    let c ← logical last fuel
    let isBackground ← takeOp "&"
    let c := if isBackground then .background c else c
    let hasMark ← if isBackground then pure true else takeOp ";"
    let goesOn := hasMark || (!isLine && (← isOp "\n"))
    if !isLine then skipLines
    let ts ← get
    let isEnd := if isLine then startsOp "\n" ts || ts.isEmpty else isClosed ts
    if isEnd || !goesOn then return c
    return .sequence c (← list last isLine fuel)

/-- Pipelines joined by conditions. -/
def logical (last : Nat) : Nat → Reading Command
  | 0 => unexpected last none
  | fuel + 1 => do
    logicalFrom last fuel (← pipeline last fuel)

/-- Further pipelines joined to a command by conditions. -/
def logicalFrom (last : Nat) : Nat → Command → Reading Command
  | 0, c => return c
  | fuel + 1, c => do
    if ← takeOp "&&" then
      skipLines
      logicalFrom last fuel (.both c (← pipeline last fuel))
    else if ← takeOp "||" then
      skipLines
      logicalFrom last fuel (.either c (← pipeline last fuel))
    else return c

/-- Commands whose outputs feed each other. -/
def pipeline (last : Nat) : Nat → Reading Command
  | 0 => unexpected last none
  | fuel + 1 => do
    expandAlias
    let isNegated ← takeWord "!"
    let c ← command last fuel
    let more ← feeds last fuel
    return if more.isEmpty && !isNegated then c else .pipeline isNegated (c :: more)

/-- The further commands of a pipeline. -/
def feeds (last : Nat) : Nat → Reading (List Command)
  | 0 => return []
  | fuel + 1 => do
    if ← takeOp "|" then
      skipLines
      expandAlias
      let c ← command last fuel
      return c :: (← feeds last fuel)
    else return []

/-- A single command, with the redirections of one that has structure. -/
def command (last : Nat) : Nat → Reading Command
  | 0 => unexpected last none
  | fuel + 1 => do
    let ts ← get
    let line := (ts.head?.map Token.line).getD last
    match ← compound last fuel with
    | some c =>
      let rs ← redirects last ts.length
      return if rs.isEmpty then c else .redirected line c rs
    | none =>
      match ts.head?.bind bare? with
      | some s =>
        if reserved.contains s then unexpected last none
        else if !s.contains '=' && startsOp "(" (ts.drop 1) then
          skip
          skip
          if let ⟨.word _, line⟩ :: _ ← get then
            throw ⟨line, "word unexpected (expecting \")\")"⟩
          expectOp last ")"
          if !Token.isName s.toList then throw ⟨line, "Bad function name"⟩
          skipLines
          return .define s.toList (← command last fuel)
        else simple last
      | none => simple last

/-- A command with structure, if one comes next. -/
def compound (last : Nat) : Nat → Reading (Option Command)
  | 0 => return none
  | fuel + 1 => do
    if ← takeOp "(" then
      let c ← list last false fuel
      expectOp last ")"
      return some (.subshell c)
    else if ← takeWord "\x7b" then
      let c ← list last false fuel
      expectWord last "\x7d"
      return some c
    else if ← takeWord "if" then return some (← conditional last fuel)
    else if ← takeWord "while" then return some (← repeated last false fuel)
    else if ← takeWord "until" then return some (← repeated last true fuel)
    else if ← takeWord "for" then return some (← iteration last fuel)
    else if ← takeWord "case" then return some (← choice last fuel)
    else return none

/-- A conditional command, its first word read already. -/
def conditional (last : Nat) : Nat → Reading Command
  | 0 => unexpected last none
  | fuel + 1 => do
    let test ← list last false fuel
    expectWord last "then"
    let yes ← list last false fuel
    if ← takeWord "elif" then return .cond test yes (some (← conditional last fuel))
    let no ← if ← takeWord "else" then some <$> list last false fuel else pure none
    expectWord last "fi"
    return .cond test yes no

/-- A loop, its first word read already. -/
def repeated (last : Nat) (isUntil : Bool) : Nat → Reading Command
  | 0 => unexpected last none
  | fuel + 1 => do
    let test ← list last false fuel
    return .loop isUntil test (← block last fuel)

/-- The body of a loop. -/
def block (last : Nat) : Nat → Reading Command
  | 0 => unexpected last none
  | fuel + 1 => do
    expectWord last "do"
    let body ← list last false fuel
    expectWord last "done"
    return body

/-- A loop over words, its first word read already. -/
def iteration (last : Nat) : Nat → Reading Command
  | 0 => unexpected last none
  | fuel + 1 => do
    let ts ← get
    let bad : Reading Command :=
      throw ⟨(ts.head?.map Token.line).getD last, "Bad for loop variable"⟩
    match ts.head?.bind bare? with
    | none => bad
    | some name =>
      if !Token.isName name.toList then bad else
      skip
      skipLines
      let ws ← if ← takeWord "in" then some <$> words ts.length else pure none
      let _ ← takeOp ";"
      skipLines
      return .each name.toList ws (← block last fuel)

/-- A choice by patterns, its first word read already. -/
def choice (last : Nat) : Nat → Reading Command
  | 0 => unexpected last none
  | fuel + 1 => do
    match (← get).head?.map Token.kind with
    | some (.word w) =>
      skip
      skipLines
      expectWord last "in"
      skipLines
      return .choose w (← branches last fuel)
    | _ => unexpected last none

/-- The branches of a choice, with its last word. -/
def branches (last : Nat) : Nat → Reading (List (List Word × Option Command))
  | 0 => unexpected last none
  | fuel + 1 => do
    if ← takeWord "esac" then return []
    let _ ← takeOp "("
    let ws ← patterns last ((← get).length + 1)
    skipLines
    let isEmpty := (← isOp ";;") || (← isWord "esac")
    let body ← if isEmpty then pure none else some <$> list last false fuel
    if ← takeOp ";;" then
      skipLines
      return (ws, body) :: (← branches last fuel)
    if !(← takeWord "esac") then unexpected last (some ";;")
    return [(ws, body)]

end

/-- The number of the last line. -/
def lastLine (ts : List Token) : Nat := (ts.getLast?.map Token.line).getD 1

/-- The commands of the next line; none at the end of the script. -/
def line (last : Nat) : Reading (Option Command) := do
  skipLines
  let ts ← get
  if ts.isEmpty then return none
  let room := (← read).foldl (fun n (_, text) => n + text.length) 1
  let c ← list last true (8 * room * ts.length + 8)
  let rest ← get
  if !rest.isEmpty then
    if !(← takeOp "\n") then unexpected last none
  return some c

end Grammar

end CommandExpr.Machine.Shell
