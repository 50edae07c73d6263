import CommandExpr.Machine.Shell.Script

/-!
# Tokens

A script is cut into words, operators and redirections. Quotes and expansions are part of words and
keep their structure; a text that stands in the script for a redirection is taken from the lines
that follow. A script that cannot be cut ends with a fault, which is met only when the reading of
commands comes that far.

## Main definitions

* `Token` — a token with the number of its line
* `Token.ofScript` — the tokens of a script
-/

namespace CommandExpr.Machine.Shell

/-- A kind of token. -/
inductive TokenKind where
  | word (w : Word)
  /-- An operator; a line end counts as one. -/
  | op (s : String)
  /-- A redirection whose word follows. -/
  | redirect (fd : Nat) (kind : RedirectKind)
  /-- A redirection from a text. -/
  | document (r : Redirect)
  /-- What is wrong with the script from here on. -/
  | fault (message : String)

/-- A token. -/
structure Token where
  /-- What it is. -/
  kind : TokenKind
  /-- The number of its line, from one on. -/
  line : Nat

namespace Token

/-- Is it a blank between words? -/
def isBlank (c : Char) : Bool := c = ' ' || c = '\t'

/-- Does a character end a word that is not quoted? -/
def endsWord (c : Char) : Bool := isBlank c || c = '\n' || "|&;<>()".toList.contains c

/-- Can a name start with the character? -/
def startsName (c : Char) : Bool := c.isAlpha || c = '_'

/-- Can the character stand in a name? -/
def isNameChar (c : Char) : Bool := c.isAlphanum || c = '_'

/-- Is a text a name? -/
def isName (s : Chars) : Bool := (s.head?).any startsName && s.all isNameChar

/-- The parameters that are named by a sign. -/
def specials : Chars := "@*#?-$!".toList

/-- In what surroundings a word is read. -/
inductive Mode where
  /-- On its own, up to a blank or an operator. -/
  | plain
  /-- Between double quotes. -/
  | quotes
  /-- In braces, which may stand between double quotes. -/
  | braces (isQuoted : Bool)
  /-- In a computation with so many open parentheses. -/
  | arithmetic (depth : Nat)
  /-- In the text of a redirection. -/
  | document
  deriving DecidableEq

namespace Mode

/-- Is text as good as quoted in these surroundings? -/
def isQuoted : Mode → Bool
  | plain => false
  | braces q => q
  | quotes | arithmetic _ | document => true

end Mode

/-- The part of a script up to the parenthesis that closes it, and what follows; the fuel bounds
the characters, and the depth counts open parentheses. -/
def untilParenthesis : Nat → Nat → Chars → Option (Chars × Chars)
  | 0, _, _ | _ + 1, _, [] => none
  | fuel + 1, depth, c :: rest =>
    let go (more : Chars) (depth : Nat) (rest : Chars) : Option (Chars × Chars) :=
      (untilParenthesis fuel depth rest).map fun (inner, rest) => (more ++ inner, rest)
    match c with
    | ')' => if depth = 0 then some ([], rest) else go [c] (depth - 1) rest
    | '(' => go [c] (depth + 1) rest
    | '\\' => go (c :: rest.take 1) depth (rest.drop 1)
    | '\'' =>
      let inner := rest.takeWhile (· ≠ '\'')
      go (c :: inner ++ ['\'']) depth (rest.drop (inner.length + 1))
    | '"' =>
      let inner := untilQuote (rest.length + 1) rest
      go (c :: inner ++ ['"']) depth (rest.drop (inner.length + 1))
    | _ => go [c] depth rest
where
  /-- The text up to the double quote that closes it. -/
  untilQuote : Nat → Chars → Chars
    | 0, _ | _ + 1, [] => []
    | fuel + 1, c :: rest =>
      if c = '"' then []
      else if c = '\\' then c :: rest.take 1 ++ untilQuote fuel (rest.drop 1)
      else c :: untilQuote fuel rest

/-- The script between back quotes, and what follows; a backslash quotes a few characters in it. -/
def untilBackquote (isQuoted : Bool) : Chars → Option (Chars × Chars)
  | [] => none
  | [c] => if c = '\x60' then some ([], []) else none
  | c :: d :: rest =>
    if c = '\x60' then some ([], d :: rest)
    else if c = '\\' && ("$\x60\\".toList.contains d || (isQuoted && d = '"')) then
      (untilBackquote isQuoted rest).map fun (inner, rest) => (d :: inner, rest)
    else (untilBackquote isQuoted (d :: rest)).map fun (inner, rest) => (c :: inner, rest)

/-- The name of a parameter in braces, and what follows. -/
def bracedName (s : Chars) : Option (Chars × Chars) :=
  match s with
  | [] => none
  | c :: rest =>
    if startsName c then
      let name := s.takeWhile isNameChar
      some (name, s.drop name.length)
    else if c.isDigit then
      let name := s.takeWhile Char.isDigit
      some (name, s.drop name.length)
    else if specials.contains c then some ([c], rest)
    else none

/-- Text put in front of the pieces of a word, joined with text that is quoted alike. -/
def putText (s : Chars) (isQuoted : Bool) : Word → Word
  | .text t q :: rest =>
    if q = isQuoted then .text (s ++ t) q :: rest else .text s isQuoted :: .text t q :: rest
  | w => .text s isQuoted :: w

/-- The pieces of a word in its surroundings, and what follows; or what is wrong with it. The fuel
bounds the characters that are read. -/
def pieces : Nat → Mode → Chars → Except String (Word × Chars)
  | 0, _, s => .ok ([], s)
  | fuel + 1, mode, s =>
    let go (p : Piece) (rest : Chars) : Except String (Word × Chars) :=
      (pieces fuel mode rest).map fun (w, rest) => (p :: w, rest)
    let char (c : Char) (isQuoted : Bool) (rest : Chars) : Except String (Word × Chars) :=
      (pieces fuel mode rest).map fun (w, rest) => (putText [c] isQuoted w, rest)
    let q := mode.isQuoted
    match s with
    | [] =>
      match mode with
      | .plain | .document => .ok ([], [])
      | .quotes => .error "Unterminated quoted string"
      | .braces _ => .error "Missing '\x7d'"
      | .arithmetic _ => .error "Missing '))'"
    | c :: rest =>
      if mode = .plain && endsWord c then .ok ([], s)
      else if mode = .quotes && c = '"' then .ok ([], rest)
      else if (mode = .braces true || mode = .braces false) && c = '\x7d' then .ok ([], rest)
      else match mode, c, rest with
        | .arithmetic 0, ')', ')' :: rest => .ok ([], rest)
        | .arithmetic n, '(', _ =>
          (pieces fuel (.arithmetic (n + 1)) rest).map fun (w, rest) => (putText [c] true w, rest)
        | .arithmetic n, ')', _ =>
          (pieces fuel (.arithmetic (n - 1)) rest).map fun (w, rest) => (putText [c] true w, rest)
        | _, '\\', '\n' :: rest => pieces fuel mode rest
        | _, '\\', d :: rest' =>
          let isEscape := !q || "$\x60\\".toList.contains d
            || (d = '"' && mode ≠ .document) || (d = '\x7d' && mode = .braces true)
          if isEscape then char d true rest' else char c true rest
        | _, '\'', _ =>
          if q then char c true rest
          else
            let inner := rest.takeWhile (· ≠ '\'')
            if inner.length = rest.length then .error "Unterminated quoted string"
            else go (.text inner true) (rest.drop (inner.length + 1))
        | .document, '"', _ => char c true rest
        | .arithmetic _, '"', _ => pieces fuel mode rest
        | _, '"', _ => do
          let (inner, rest) ← pieces fuel .quotes rest
          let (w, rest) ← pieces fuel mode rest
          return ((if inner.isEmpty then [.text [] true] else inner) ++ w, rest)
        | _, '\x60', _ =>
          match untilBackquote q rest with
          | some (script, rest) => go (.output script q) rest
          | none => .error "EOF in backquote substitution"
        | _, '$', '(' :: '(' :: rest' => do
          let (inner, rest) ← pieces fuel (.arithmetic 0) rest'
          let (w, rest) ← pieces fuel mode rest
          return (.arithmetic inner q :: w, rest)
        | _, '$', '(' :: rest' =>
          match untilParenthesis (rest'.length + 1) 0 rest' with
          | some (script, rest) => go (.output script q) rest
          | none => .error "end of file unexpected (expecting \")\")"
        | _, '$', '\x7b' :: rest' => do
          let (p, rest) ← braced fuel q rest'
          let (w, rest) ← pieces fuel mode rest
          return (p :: w, rest)
        | _, '$', d :: rest' =>
          if startsName d then
            let name := rest.takeWhile isNameChar
            go (.parameter name .plain q) (rest.drop name.length)
          else if d.isDigit || specials.contains d then go (.parameter [d] .plain q) rest'
          else char c q rest
        | _, _, _ => char c q rest
where
  /-- A parameter in braces, the opening one read already. -/
  braced (fuel : Nat) (isQuoted : Bool) (s : Chars) : Except String (Piece × Chars) :=
    let missing : Except String (Piece × Chars) := .error "Missing '\x7d'"
    let senseless (rest : Chars) : Except String (Piece × Chars) := do
      let (_, rest) ← pieces fuel (.braces isQuoted) rest
      return (.parameter [] .senseless isQuoted, rest)
    let lengthOf : Option (Piece × Chars) :=
      match s with
      | '#' :: rest =>
        match bracedName rest with
        | some (name, '\x7d' :: rest) => some (.parameter name .length isQuoted, rest)
        | _ => none
      | _ => none
    match lengthOf with
    | some found => .ok found
    | none =>
      match bracedName s with
      | none => if s.isEmpty then missing
        else senseless (if s.head? = some '\x7d' then s else s.drop 1)
      | some (name, rest) =>
        let fallback (sign : Char) (hasColon : Bool) (rest : Chars) :
            Except String (Piece × Chars) := do
          let (w, rest) ← pieces fuel (.braces isQuoted) rest
          return (.parameter name (.fallback sign hasColon w) isQuoted, rest)
        let strip (atEnd isLongest : Bool) (rest : Chars) : Except String (Piece × Chars) := do
          let (w, rest) ← pieces fuel (.braces false) rest
          return (.parameter name (.strip atEnd isLongest w) isQuoted, rest)
        match rest with
        | '\x7d' :: rest => .ok (.parameter name .plain isQuoted, rest)
        | ':' :: c :: rest =>
          if "-=?+".toList.contains c then fallback c true rest else senseless rest
        | '#' :: '#' :: rest => strip false true rest
        | '#' :: rest => strip false false rest
        | '%' :: '%' :: rest => strip true true rest
        | '%' :: rest => strip true false rest
        | c :: rest => if "-=?+".toList.contains c then fallback c false rest else senseless rest
        | [] => missing

/-! ## Scripts -/

/-- A text that a redirection still waits for. -/
structure Awaited where
  /-- The descriptor. -/
  fd : Nat
  /-- The line that ends the text. -/
  ending : Chars
  /-- Is the text taken as it stands? -/
  isVerbatim : Bool
  /-- Are tabs at the start of its lines dropped? -/
  dropsTabs : Bool

/-- The lines of a text up to the one that ends it, and what follows. -/
def untilLine (a : Awaited) : Nat → Chars → Chars × Chars
  | 0, s => ([], s)
  | _ + 1, [] => ([], [])
  | fuel + 1, s =>
    let line := s.takeWhile (· ≠ '\n')
    let rest := s.drop (line.length + 1)
    let shown := if a.dropsTabs then line.dropWhile (· = '\t') else line
    if shown = a.ending then ([], rest)
    else if line.length = s.length then (shown, [])
    else
      let (more, rest) := untilLine a fuel rest
      (shown ++ '\n' :: more, rest)

/-- The redirection from an awaited text, and what follows the text. -/
def Awaited.read (a : Awaited) (s : Chars) : Except String (Redirect × Chars) := do
  let (body, rest) := untilLine a (s.length + 1) s
  let word ← if a.isVerbatim then pure [Piece.text body true]
    else (pieces (2 * body.length + 2) .document body).map (·.1)
  return (⟨a.fd, .document, word⟩, rest)

/-- The text of a word, its quotes dropped; none if it has expansions. -/
def literal? (w : Word) : Option Chars :=
  let textOf : Piece → Option Chars
    | .text s _ => some s
    | _ => none
  (w.mapM textOf).map List.flatten

/-- The operators that join commands, longer ones first. -/
def operators : List String := ["&&", "||", ";;", "&", "|", ";", "(", ")"]

/-- The operators of redirections, longer ones first. -/
def redirections : List (String × Option RedirectKind) :=
  [("<<-", none), ("<<", none), ("<&", some .copy), ("<>", some .both), ("<", some .input),
    (">>", some .append), (">&", some .copy), (">|", some .overwrite), (">", some .output)]

/-- The first of several spellings at the front of a text. -/
def spelled? {α : Type} (table : List (String × α)) (s : Chars) : Option (String × α × Chars) :=
  (table.find? fun (n, _) => n.toList.isPrefixOf s).map fun (n, a) => (n, a, s.drop n.length)

/-- How many lines end between a text and its rest. -/
def linesBetween (s rest : Chars) : Nat := (s.take (s.length - rest.length)).count '\n'

/-- What is done after a token. -/
structure Scanned where
  /-- Its kind. -/
  kind : TokenKind
  /-- What follows. -/
  rest : Chars
  /-- The text that it makes the scanner wait for. -/
  awaited : Option Awaited := none

/-- How what stands at the front of a text, where no word does, is named when it is not expected. -/
def nameAt (s : Chars) : String :=
  match s with
  | [] => "end of file"
  | '\n' :: _ => "newline"
  | _ =>
    if (spelled? redirections s).isSome then "redirection"
    else match spelled? (operators.map fun o => (o, ())) s with
      | some (name, _, _) => s!"\"{name}\""
      | none => "word"

/-- The redirection at the front of a text, for a descriptor that may stand in front. -/
def scanRedirect (given : Option Nat) (s : Chars) : Option (Except String Scanned) :=
  (spelled? redirections s).map fun (name, kind, rest) =>
    let fd := given.getD (if name.startsWith "<" then 0 else 1)
    match kind with
    | some kind => .ok { kind := .redirect fd kind, rest }
    | none => do
      let s := rest.dropWhile isBlank
      let (w, rest) ← pieces (2 * s.length + 2) .plain s
      if w.isEmpty then throw s!"{nameAt s} unexpected"
      let isVerbatim := w.any fun
        | .text _ q => q
        | _ => false
      let ending := (literal? w).getD []
      return { kind := .document ⟨fd, .document, []⟩, rest,
               awaited := some ⟨fd, ending, isVerbatim, name = "<<-"⟩ }

/-- The token at the front of a text that is not empty and does not start with a blank. -/
def scan (s : Chars) : Except String Scanned :=
  let digits := s.takeWhile Char.isDigit
  let numbered := if digits.isEmpty then none
    else (Numeral.digits? digits).bind fun fd => scanRedirect (some fd) (s.drop digits.length)
  match numbered with
  | some r => r
  | none =>
    match scanRedirect none s with
    | some r => r
    | none =>
      match spelled? (operators.map fun o => (o, ())) s with
      | some (name, _, rest) => .ok { kind := .op name, rest }
      | none => do
        let (w, rest) ← pieces (2 * s.length + 2) .plain s
        return { kind := .word w, rest }

/-- Read the awaited texts in order; the fuel bounds their number. -/
def readAwaited : List Awaited → Chars → Except String (List Redirect × Chars)
  | [], s => .ok ([], s)
  | a :: more, s => do
    let (r, s) ← a.read s
    let (rs, s) ← readAwaited more s
    return (r :: rs, s)

/-- Put the texts that were awaited into the tokens that wait for them, the last token first. -/
def fill : List Redirect → List Token → List Token
  | [], ts => ts
  | _, [] => []
  | r :: rs, t :: ts =>
    match t.kind with
    | .document _ => { t with kind := .document r } :: fill rs ts
    | _ => t :: fill (r :: rs) ts

/-- The tokens of a text; the tokens of the current line wait, the last one first, until the texts
that they need are read. The fuel bounds the tokens. -/
def tokens : Nat → Nat → List Token → List Awaited → Chars → List Token
  | 0, _, held, _, _ => held.reverse
  | fuel + 1, line, held, awaited, s =>
    match s.dropWhile isBlank with
    | [] => held.reverse
    | '\\' :: '\n' :: rest => tokens fuel (line + 1) held awaited rest
    | '#' :: rest => tokens fuel line held awaited (rest.dropWhile (· ≠ '\n'))
    | '\n' :: rest =>
      match readAwaited awaited rest with
      | .error message => held.reverse ++ [⟨.fault message, line⟩]
      | .ok (found, rest') =>
        let filled := (fill found.reverse held).reverse
        filled ++ ⟨.op "\n", line⟩ :: tokens fuel (line + 1 + linesBetween rest rest') [] [] rest'
    | s =>
      match scan s with
      | .error message => held.reverse ++ [⟨.fault message, line + s.count '\n'⟩]
      | .ok r =>
        let line' := line + linesBetween s r.rest
        tokens fuel line' (⟨r.kind, line⟩ :: held) (awaited ++ r.awaited.toList) r.rest

/-- The tokens of a script. A text that the script ends before is empty. -/
def ofScript (s : Chars) : List Token := tokens (s.length + 2) 1 [] [] s

end Token

end CommandExpr.Machine.Shell
