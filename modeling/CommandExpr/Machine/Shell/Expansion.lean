import CommandExpr.Machine.Shell.Arithmetic
import CommandExpr.Machine.Shell.State
import CommandExpr.Machine.Utility.Files
import CommandExpr.Machine.Utility.Pattern

/-!
# Expansion

Words become fields: parameters, outputs and computations are put in, what they gave is split at
separators, and patterns are replaced by the names of files that they match. What is quoted is left
alone.

## Main definitions

* `Cell` — a character of a word under expansion
* `fieldsOf` — the splitting
* `Glob.names` — the files that a pattern matches
* `fields`, `single` — the fields of words, the text of a word
-/

namespace CommandExpr.Machine.Shell

/-- A part of a word under expansion. -/
inductive Cell where
  /-- A character; one that is quoted is not special, one that splits may separate fields. -/
  | char (c : Char) (isQuoted splits : Bool)
  /-- A field is here, even if it is empty. -/
  | mark
  /-- A field ends here. -/
  | cut

/-- A field: characters, each with whether it is quoted. -/
abbrev Field := List (Char × Bool)

namespace Field

/-- The text of a field. -/
def text (f : Field) : Chars := f.map (·.1)

/-- Has a field a character that makes it a pattern? -/
def isPattern (f : Field) : Bool := f.any fun (c, q) => !q && (c = '*' || c = '?' || c = '[')

end Field

/-! ## Splitting -/

/-- A splitting under way: the fields that are complete, the last one first, and the current one. -/
structure Splitting where
  /-- The complete fields. -/
  done : List Field := []
  /-- The current field, the last character first. -/
  current : Option Field := none
  /-- Did a blank end the last field? -/
  isAfterBlank : Bool := false

namespace Splitting

/-- The splitting with the current field ended. -/
def close (s : Splitting) : Splitting :=
  match s.current with
  | some f => { done := f.reverse :: s.done }
  | none => { s with isAfterBlank := false }

/-- The splitting with a cell more. -/
def add (separators : Chars) (s : Splitting) : Cell → Splitting
  | .mark => { s with current := some (s.current.getD []), isAfterBlank := false }
  | .cut => s.close
  | .char c isQuoted splits =>
    if splits && separators.contains c then
      if c = ' ' || c = '\t' || c = '\n' then
        if s.current.isSome then { s.close with isAfterBlank := true } else s
      else if s.current.isSome || s.isAfterBlank then s.close
      else { s with done := [] :: s.done }
    else
      { s with current := some ((c, isQuoted) :: s.current.getD []), isAfterBlank := false }

end Splitting

/-- The fields of cells. -/
def fieldsOf (separators : Chars) (cells : List Cell) : List Field :=
  (cells.foldl (Splitting.add separators) {}).close.done.reverse

/-- The characters of cells, nothing split; what would be fields of their own is joined. -/
def fieldOf (joint : Chars) (cells : List Cell) : Field :=
  cells.flatMap fun
    | .char c q _ => [(c, q)]
    | .mark => []
    | .cut => joint.map fun c => (c, true)

/-! ## Patterns -/

namespace Glob

/-- The pattern that a field spells; the fuel bounds its characters. -/
def patternFrom : Nat → Field → Pattern
  | 0, _ | _ + 1, [] => .empty
  | fuel + 1, (c, q) :: rest =>
    let plain : Pattern := .both (.char c) (patternFrom fuel rest)
    if q then plain
    else if c = '*' then .both (.many .any 0 none) (patternFrom fuel rest)
    else if c = '?' then .both .any (patternFrom fuel rest)
    else if c = '[' then
      let text := match Field.text rest with
        | '!' :: more => '^' :: more
        | text => text
      match Pattern.bracket false text with
      | .ok (set, left) =>
        .both (.one set) (patternFrom fuel (rest.drop (rest.length - left.length)))
      | .error _ => plain
    else plain

/-- The pattern that a field spells. -/
def pattern (f : Field) : Pattern := patternFrom (f.length + 1) f

/-- Does a pattern match a whole text? -/
def isMatch (p : Pattern) (text : Chars) : Bool :=
  (p.ends text.toArray false 0).contains text.length

/-- A text without what a pattern matches at its start. -/
def cutStart (isLongest : Bool) (p : Pattern) (text : Chars) : Chars :=
  let ends := p.ends text.toArray false 0
  match (if isLongest then ends.max? else ends.min?) with
  | some n => text.drop n
  | none => text

/-- A text without what a pattern matches at its end. -/
def cutEnd (isLongest : Bool) (p : Pattern) (text : Chars) : Chars :=
  let s := text.toArray
  let starts := (List.range (s.size + 1)).filter fun i => (p.ends s false i).contains s.size
  match (if isLongest then starts.min? else starts.max?) with
  | some n => text.take n
  | none => text

/-- The parts of a field between slashes. -/
def components (f : Field) : List Field :=
  f.foldr (fun x parts =>
    match parts with
    | part :: more => if x.1 = '/' then [] :: part :: more else (x :: part) :: more
    | [] => [[x]]) [[]]

/-- The names in a directory that a part of a pattern matches, in order. -/
def namesIn (dir : Chars) (part : Field) : Task (List Chars) := do
  let path := if dir.isEmpty then ['.'] else dir
  match ← Task.info (Latin.toBytes path) true with
  | .error _ => return []
  | .ok i =>
    if !i.node.allows 4 then return []
    let dots : List Bytes := if i.node.isDirectory then [[Path.dot], FileTree.dotDot] else []
    let all := (dots ++ i.node.entries.map (·.1)).mergeSort Utility.isOrdered
    let hidden := part.head?.any (·.1 = '.')
    let p := pattern part
    return (all.map Latin.ofBytes).filter fun n =>
      (n.head? ≠ some '.' || hidden) && isMatch p n

/-- The paths that go on from some by the parts of a pattern. -/
def namesFrom : List Field → List Chars → Task (List Chars)
  | [], found => return found
  | [part], found => do
    let lists ← found.mapM fun dir => do
      if Field.isPattern part then
        return (← namesIn dir part).map (dir ++ ·)
      else
        let path := dir ++ Field.text part
        return if (← Task.info (Latin.toBytes path) false).toOption.isSome then [path] else []
    return lists.flatten
  | part :: rest, found => do
    let lists ← found.mapM fun dir => do
      if Field.isPattern part then
        let names ← namesIn dir part
        (names.map (dir ++ ·)).filterM fun path => Utility.isDirectoryAt (Latin.toBytes path)
      else return [dir ++ Field.text part]
    namesFrom rest (lists.flatten.map (· ++ ['/']))

/-- The files that a field matches as a pattern, in order. -/
def names (f : Field) : Task (List Chars) := namesFrom (components f) [[]]

end Glob

/-! ## Parameters -/

/-- The cells of a text. -/
def cellsOf (isQuoted splits : Bool) (s : Chars) : List Cell :=
  if isQuoted then
    if s.isEmpty then [.mark] else s.map fun c => .char c true false
  else s.map fun c => .char c false splits

/-- The value of a parameter other than all arguments. -/
def parameter? (s : Shell) (name : Chars) : Option Chars :=
  match name with
  | ['?'] => some (toString s.status).toList
  | ['$'] => some (toString s.pid).toList
  | ['!'] => s.lastBackground.map fun pid => (toString pid).toList
  | ['#'] => some (toString s.args.length).toList
  | ['-'] => some s.flags
  | _ =>
    match Numeral.digits? name with
    | some 0 => some s.name
    | some (n + 1) => s.args[n]?
    | none => s.value? name

/-- The text of arguments in a row, for a parameter that stands for all of them. -/
def joinedArgs (s : Shell) : Chars := (s.args.intersperse s.joint).flatten

/-- The cells of all arguments: each is a field of its own, unless quotes hold them together. -/
def argumentCells (s : Shell) (isStar isQuoted splits : Bool) : List Cell :=
  if isQuoted && isStar then cellsOf true false (joinedArgs s)
  else
    ((s.args.map (cellsOf isQuoted splits)).intersperse [.cut]).flatten

/-- How outputs of scripts are taken. -/
abbrev Outputs := Chars → Run Chars

/-- The value of a variable as a number. -/
def numberIn (s : Shell) (name : Chars) : Except Arithmetic.Failure Int :=
  let value := (s.value? name).getD []
  match Arithmetic.numberOf? value with
  | some n => .ok n
  | none => .error (.badNumber value)

/-- The value of the computation that a text spells. -/
def compute (text : Chars) : Run Chars := do
  let s ← get
  let result := do
    let x ← (Arithmetic.ofChars text).mapError Arithmetic.Failure.fault
    (x.eval (numberIn s)).run []
  match result with
  | .ok (n, assigned) =>
    for (name, value) in assigned.reverse do
      assign name (toString value).toList
    return (toString n).toList
  | .error (.badNumber value) => abort ("Illegal number: ".toList ++ value)
  | .error (.fault message) =>
    abort ("arithmetic expression: ".toList ++ message.toList ++ ": \"".toList ++ text ++ ['"'])

/-- The cells of a word, its outputs taken by `out`; text that is not quoted splits if `splits` is
set. The fuel bounds how deep words stand in words. -/
def cells (out : Outputs) (splits : Bool) : Nat → Word → Run (List Cell)
  | 0, _ => return []
  | fuel + 1, w => do
    let lists ← w.mapM (pieceCells out splits fuel)
    return lists.flatten
where
  /-- The cells of a part of a word. -/
  pieceCells (out : Outputs) (splits : Bool) (fuel : Nat) (p : Piece) : Run (List Cell) := do
    match p with
    | .text s isQuoted => return cellsOf isQuoted splits s
    | .output script isQuoted => return cellsOf isQuoted true (← out script)
    | .arithmetic inner isQuoted =>
      let text := Field.text (fieldOf (← get).joint (← cells out false fuel inner))
      return cellsOf isQuoted true (← compute text)
    | .parameter name modifier isQuoted =>
      let s ← get
      let isAll := name = ['@'] || name = ['*']
      let value := if isAll then some (joinedArgs s) else parameter? s name
      let whole : List Cell := if isAll then argumentCells s (name = ['*']) isQuoted true
        else cellsOf isQuoted true (value.getD [])
      let checked : Run Unit := do
        if value.isNone && !isAll && s.hasFlag 'u' then
          abort (name ++ ": parameter not set".toList)
      match modifier with
      | .senseless => abort "Bad substitution".toList
      | .plain =>
        checked
        return whole
      | .length =>
        checked
        let n := if isAll then s.args.length else (value.getD []).length
        return cellsOf isQuoted true (toString n).toList
      | .strip atEnd isLongest inner =>
        checked
        let p := Glob.pattern (fieldOf s.joint (← cells out false fuel inner))
        let text := value.getD []
        let kept := if atEnd then Glob.cutEnd isLongest p text else Glob.cutStart isLongest p text
        return cellsOf isQuoted true kept
      | .fallback sign hasColon inner =>
        let isMissing := value.isNone || (hasColon && value = some [])
        if sign = '+' then
          if isMissing then return (if isQuoted then [.mark] else [])
          else cells out true fuel inner
        else if !isMissing then return whole
        else if sign = '-' then cells out true fuel inner
        else
          let text := Field.text (fieldOf (← get).joint (← cells out false fuel inner))
          if sign = '=' then
            if !Token.isName name then abort (name ++ ": bad variable name".toList)
            assign name text
            return cellsOf isQuoted true text
          else
            let reason := if !text.isEmpty then text
              else if hasColon then "parameter not set or null".toList
              else "parameter not set".toList
            abort (name ++ ": ".toList ++ reason)

/-- How deep words stand in words. -/
def deepestWord : Nat := 1000

/-- The home directory of a user, or that of the user who runs the shell if there is no name. -/
def homeOf (s : Shell) (user : Chars) : Option Chars :=
  if user.isEmpty then s.value? "HOME".toList
  else if user = "root".toList then some "/root".toList
  else none

/-- A word with a home directory in the place of a tilde and a name at its start. -/
def withHome (s : Shell) (w : Word) : Word :=
  match w with
  | .text ('~' :: rest) false :: more =>
    let user := rest.takeWhile (· ≠ '/')
    let rest := rest.drop user.length
    if rest.isEmpty && !more.isEmpty then w
    else match homeOf s user with
      | some home => .text home true :: .text rest false :: more
      | none => w
  | _ => w

/-- The field of a word that is not split. -/
def singleField (out : Outputs) (w : Word) : Run Field := do
  let s ← get
  return fieldOf s.joint (← cells out false deepestWord (withHome s w))

/-- The text of a word that is not split. -/
def single (out : Outputs) (w : Word) : Run Chars := do
  return Field.text (← singleField out w)

/-- The fields of words. -/
def fields (out : Outputs) (ws : List Word) : Run (List Chars) := do
  let mut all : List Chars := []
  for w in ws do
    let s ← get
    let found := fieldsOf s.separators (← cells out false deepestWord (withHome s w))
    for f in found do
      if Field.isPattern f && !s.hasFlag 'f' then
        let names ← (Glob.names f : Task (List Chars))
        all := all ++ (if names.isEmpty then [Field.text f] else names)
      else all := all ++ [Field.text f]
  return all

end CommandExpr.Machine.Shell
