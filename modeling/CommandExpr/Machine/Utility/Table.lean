import CommandExpr.Machine.Utility.Quantity
import CommandExpr.Machine.Utility.Stream

/-!
# Lines side by side

The utilities that number, fold and align lines, put the lines of several files together, and compare
files line by line.

## Main definitions

* `Utility.nl`, `Utility.fold`, `Utility.expand`, `Utility.unexpand` — lines changed one by one
* `Utility.paste` — lines of several files next to each other
* `Utility.comm`, `Utility.join` — lines of two files compared
-/

namespace CommandExpr.Machine.Utility

/-! ## Numbers in front -/

/-- Which lines are numbered. -/
inductive Numbering where
  | all | nonempty | none
  deriving DecidableEq

/-- The numbering that a letter stands for. -/
def Numbering.ofBytes? (s : Bytes) : Option Numbering :=
  match Latin.ofBytes s with
  | ['a'] => some .all
  | ['t'] => some .nonempty
  | ['n'] => some .none
  | _ => Option.none

/-- How numbers are written in front of lines. -/
structure NumberStyle where
  /-- The parts of a page that are numbered: header, body and footer. -/
  parts : Numbering × Numbering × Numbering := (.none, .nonempty, .none)
  /-- The number of the first line. -/
  start : Int := 1
  /-- How much numbers grow. -/
  step : Int := 1
  /-- How wide numbers are at least. -/
  width : Nat := 6
  /-- What stands between a number and its line. -/
  separator : Chars := ['\t']
  /-- Are numbers at the left, and are they filled up with zeros? -/
  isLeft : Bool := false
  /-- Are numbers filled up with zeros? -/
  hasZeros : Bool := false
  /-- Do numbers go on where a page starts? -/
  goesOn : Bool := false

/-- A number as it is written. -/
def NumberStyle.text (s : NumberStyle) (n : Int) : Chars :=
  let digits := Nat.toDigits 10 n.natAbs
  let sign := if n < 0 then ['-'] else []
  if s.isLeft then padEnd s.width (sign ++ digits)
  else if s.hasZeros then sign ++ padStart '0' (s.width - sign.length) digits
  else padStart ' ' s.width (sign ++ digits)

/-- Number lines, given the numbering of the current part and the next number. -/
def NumberStyle.apply (s : NumberStyle) : Numbering → Int → List Bytes → List Bytes
  | _, _, [] => []
  | part, n, line :: rest =>
    let mark (count : Nat) : Bytes := (List.replicate count (Bytes.ofString "\\:")).flatten
    let restart : Int := if s.goesOn then n else s.start
    if line = mark 3 then [] :: s.apply s.parts.1 restart rest
    else if line = mark 2 then [] :: s.apply s.parts.2.1 restart rest
    else if line = mark 1 then [] :: s.apply s.parts.2.2 restart rest
    else if part = .all || (part = .nonempty && !line.isEmpty) then
      (Latin.toBytes (s.text n ++ s.separator) ++ line) :: s.apply part (n + s.step) rest
    else
      let blank := List.replicate (s.width + s.separator.length) ' '
      (Latin.toBytes blank ++ line) :: s.apply part n rest

/-- Number lines. -/
def nl : Utility :=
  let table : OptionTable :=
    { flags := ['p'], valued := "bhfivwsnld".toList
      long := [("body-numbering", 'b'), ("header-numbering", 'h'), ("footer-numbering", 'f'),
        ("line-increment", 'i'), ("starting-line-number", 'v'), ("number-width", 'w'),
        ("number-separator", 's'), ("number-format", 'n'), ("no-renumber", 'p')] }
  withUsage table 1 fun i u => do
    let part (c : Char) (d : Numbering) : Option Numbering :=
      match u.value? c with
      | some text => Numbering.ofBytes? text
      | none => some d
    let number (c : Char) (d : Int) : Option Int :=
      match u.value? c with
      | some text => Numeral.integer? (Latin.ofBytes text)
      | none => some d
    let format := (u.value? 'n').map Latin.ofBytes
    match part 'h' .none, part 'b' .nonempty, part 'f' .none, number 'v' 1, number 'i' 1,
      number 'w' 6 with
    | some header, some body, some footer, some start, some step, some width =>
      let style : NumberStyle :=
        { parts := (header, body, footer), start, step, width := width.toNat
          separator := ((u.value? 's').map Latin.ofBytes).getD ['\t']
          isLeft := format = some ['l', 'n'], hasZeros := format = some ['r', 'z']
          goesOn := u.has 'p' }
      let mut all : List Bytes := []
      let mut code := 0
      for file in (if u.operands.isEmpty then [dash] else u.operands) do
        match ← readInput file with
        | .ok bytes => all := all ++ lines bytes
        | .error e =>
          complainOf i.name file e
          code := 1
      return max code (← emit i.name (unlines (style.apply body start all)))
    | _, _, _, _, _, _ =>
      complain i.name [Bytes.ofString "invalid numbering"]
      return 1

/-! ## Width -/

/-- The column after a character. -/
def nextColumn (countsBytes : Bool) (column : Nat) (b : UInt8) : Nat :=
  if countsBytes then column + 1
  else if b = 8 then column - 1
  else if b = 13 then 0
  else if b = 9 then (column / 8 + 1) * 8
  else column + 1

/-- The column after a text. -/
def columnAfter (countsBytes : Bool) (s : Bytes) : Nat := s.foldl (nextColumn countsBytes) 0

/-- Break a line so that no part is wider than asked for; after blanks, if that is wanted. The
current part stands with its last byte first, and the fuel bounds the steps. -/
def folded (width : Nat) (countsBytes atBlanks : Bool) : Nat → Bytes → Bytes → List Bytes
  | 0, part, s => [part.reverse ++ s]
  | _ + 1, part, [] => if part.isEmpty then [] else [part.reverse]
  | fuel + 1, part, b :: rest =>
    let column := nextColumn countsBytes (columnAfter countsBytes part.reverse) b
    if column ≤ width || part.isEmpty then folded width countsBytes atBlanks fuel (b :: part) rest
    else
      let isBlank (c : UInt8) : Bool := c = 32 || c = 9
      let moved := part.takeWhile fun c => !isBlank c
      if atBlanks && moved.length < part.length then
        (part.drop moved.length).reverse
          :: folded width countsBytes atBlanks fuel moved (b :: rest)
      else part.reverse :: folded width countsBytes atBlanks fuel [] (b :: rest)

/-- Change each line of a text; a last line without an end keeps having none. -/
def onLines (f : Bytes → Bytes) (s : Bytes) : Bytes :=
  let hasEnd := s.getLast? = some Bytes.newline
  let changed := ((lines s).map f).intersperse [Bytes.newline]
  changed.flatten ++ (if hasEnd then [Bytes.newline] else [])

/-- Break long lines. -/
def fold : Utility := fun i => do
  let args := i.args.map fun a =>
    match Latin.ofBytes a with
    | '-' :: c :: cs =>
      if isDigit c then Bytes.ofString "-w" ++ Latin.toBytes (c :: cs) else a
    | _ => a
  let table : OptionTable :=
    { flags := "bs".toList, valued := ['w']
      long := [("bytes", 'b'), ("spaces", 's'), ("width", 'w')] }
  let run := withUsage table 1 fun i u => do
    let text := (u.value? 'w').getD (Bytes.ofString "80")
    match (Numeral.digits? (Latin.ofBytes text)).filter (0 < ·) with
    | none =>
      complain i.name [Bytes.ofString "invalid number of columns: ", cited text]
      return 1
    | some width =>
      let (bytes, code) ← readInputs i.name u.operands
      let broken (line : Bytes) : Bytes :=
        let parts := folded width (u.has 'b') (u.has 's') (3 * line.length + 3) [] line
        (parts.intersperse [Bytes.newline]).flatten
      return max code (← emit i.name (onLines broken bytes))
  run { i with args }

/-! ## Tabs -/

/-- The column of the next tab stop; stops are listed, or repeat after a width. -/
def nextStop (stops : List Nat) (column : Nat) : Nat :=
  match stops with
  | [width] => (column / max width 1 + 1) * width
  | _ => (stops.find? (column < ·)).getD (column + 1)

/-- The tab stops that a text tells. -/
def tabStops? (text : Chars) : Option (List Nat) :=
  ((text.map fun c => if c = ',' then ' ' else c).splitOn ' ' |>.filter (· ≠ [])).mapM
    fun part => (Numeral.digits? part).filter (0 < ·)

/-- Tabs as blanks, given the column. -/
def expanded (stops : List Nat) (onlyFront : Bool) : Nat → Bytes → Bytes
  | _, [] => []
  | column, b :: rest =>
    if b = 9 then
      let stop := nextStop stops column
      List.replicate (stop - column) 32 ++ expanded stops onlyFront stop rest
    else if onlyFront && b ≠ 32 then b :: rest
    else b :: expanded stops onlyFront (if b = 8 then column - 1 else column + 1) rest

/-- The options of the utilities for tabs. -/
def tabTable : OptionTable :=
  { flags := "ai".toList, valued := ['t']
    long := [("all", 'a'), ("initial", 'i'), ("tabs", 't'), ("first-only", 'f')] }

/-- Run a utility for tabs: given the stops, what becomes of a line. -/
def withStops (change : Usage → List Nat → Bytes → Bytes) : Utility :=
  withUsage { tabTable with flags := "aif".toList } 1 fun i u => do
    match (u.value? 't').map (tabStops? ∘ Latin.ofBytes) with
    | some none =>
      complain i.name [Bytes.ofString "tab size contains invalid character(s): ",
        cited ((u.value? 't').getD [])]
      return 1
    | stops =>
      let (bytes, code) ← readInputs i.name u.operands
      return max code (← emit i.name (onLines (change u (stops.join.getD [8])) bytes))

/-- Write tabs as blanks. -/
def expand : Utility := withStops fun u stops => expanded stops (u.has 'i') 0

/-- A line whose blanks become tabs, up to some byte. -/
structure Tabbing where
  /-- What is written already, the last byte first. -/
  done : Bytes := []
  /-- The blanks that may yet become tabs, the last one first. -/
  pending : Bytes := []
  /-- The column. -/
  column : Nat := 0
  /-- Was the last byte a blank? -/
  wasBlank : Bool := true
  /-- Is the first of the pending blanks a single one in front of a tab stop? -/
  isLone : Bool := false
  /-- May blanks still become tabs? -/
  isActive : Bool := true

namespace Tabbing

/-- Write the pending blanks. -/
def flush (t : Tabbing) : Tabbing :=
  let pending := if 1 < t.pending.length && t.isLone then t.pending.dropLast ++ [9] else t.pending
  { t with done := pending ++ t.done, pending := [], isLone := false }

/-- Write a byte. -/
def put (t : Tabbing) (b : UInt8) : Tabbing := { t with done := b :: t.done }

/-- Take a byte more. -/
def add (stops : List Nat) (onlyFront : Bool) (t : Tabbing) (b : UInt8) : Tabbing :=
  let isBlank := b = 32 || b = 9
  let isPast := 1 < stops.length && stops.all (· ≤ t.column)
  if !t.isActive then t.put b
  else if !isBlank then
    let column := if b = 8 then t.column - 1 else t.column + 1
    let t := { t.flush with column, wasBlank := false, isActive := !onlyFront }
    t.put b
  else if isPast then { t.flush with isActive := false }.put b
  else
    let stop := nextStop stops t.column
    let tabbed (t : Tabbing) : Tabbing :=
      let kept := if t.isLone then [9] else []
      { t with
        done := 9 :: kept ++ t.done, pending := [], isLone := false, column := stop
        wasBlank := true }
    if b = 9 then tabbed t
    else if t.wasBlank && t.column + 1 = stop then tabbed t
    else
      { t with
        column := t.column + 1, pending := b :: t.pending, wasBlank := true
        isLone := t.isLone || t.column + 1 = stop }

end Tabbing

/-- Runs of blanks as tabs. -/
def unexpanded (stops : List Nat) (onlyFront : Bool) (line : Bytes) : Bytes :=
  (line.foldl (Tabbing.add stops onlyFront) {}).flush.done.reverse

/-- Write blanks as tabs. -/
def unexpand : Utility :=
  withStops fun u stops =>
    unexpanded stops (u.has 'f' || !(u.has 'a' || (u.value? 't').isSome))

/-! ## Several files -/

/-- The characters of a list of separators; none stands for no character. -/
def delimiters : Chars → List (Option Char)
  | [] => []
  | ['\\'] => [some '\\']
  | '\\' :: c :: rest =>
    let meaning : Option Char := match c with
      | 'n' => some '\n'
      | 't' => some '\t'
      | '0' => none
      | c => some c
    meaning :: delimiters rest
  | c :: rest => some c :: delimiters rest

/-- Put texts together with separators in turn. -/
def pastedLine (separators : List (Option Char)) (texts : List Bytes) : Bytes :=
  (texts.zipIdx.flatMap fun (text, i) =>
    if i = 0 then text
    else
      let c := separators.getD ((i - 1) % max separators.length 1) none
      Latin.toBytes c.toList ++ text)

/-- Lines next to each other; files that have ended give empty ones. -/
def pastedRows : Nat → List (List Bytes) → List (List Bytes)
  | 0, _ => []
  | fuel + 1, files =>
    if files.all (·.isEmpty) then []
    else files.map (·.headD []) :: pastedRows fuel (files.map (·.drop 1))

/-- Hand out the lines of the standard input to those files that stand for it. -/
def dealtOut (count : Nat) (which : Nat) (ls : List Bytes) : List Bytes :=
  (ls.zipIdx.filter fun (_, i) => i % count = which).map (·.1)

/-- Put lines of several files next to each other. -/
def paste : Utility :=
  let table : OptionTable :=
    { flags := ['s'], valued := ['d'], long := [("serial", 's'), ("delimiters", 'd')] }
  withUsage table 1 fun i u => do
    let separators := delimiters ((u.value? 'd').map Latin.ofBytes |>.getD ['\t'])
    let files := if u.operands.isEmpty then [dash] else u.operands
    let mut contents : List (List Bytes) := []
    let input ← if files.contains dash then readInput dash else pure (.ok [])
    let typed := lines (input.toOption.getD [])
    let dashes := files.count dash
    let mut seen := 0
    let mut code := 0
    for file in files do
      if file = dash && !u.has 's' then
        contents := contents ++ [dealtOut dashes seen typed]
        seen := seen + 1
      else if file = dash then
        contents := contents ++ [if seen = 0 then typed else []]
        seen := seen + 1
      else match ← readInput file with
        | .ok bytes => contents := contents ++ [lines bytes]
        | .error e =>
          complainOf i.name file e
          if !u.has 's' then return 1
          code := 1
    let rows := if u.has 's' then contents
      else pastedRows ((contents.map (·.length)).foldl max 0) contents
    return max code (← emit i.name (unlines (rows.map (pastedLine separators))))

/-! ## Two files -/

/-- What comes of comparing two files in order. -/
inductive Finding where
  /-- A line and its column: the first file's, the second one's, or that of both. -/
  | line (column : Nat) (text : Bytes)
  /-- A file whose lines are not in order. -/
  | disorder (file : Nat)

/-- Whether a file is out of order where a line is left behind: the next line is compared with it,
and at the end the line with the one before. -/
def disorderAfter (file : Nat) (before : Option Bytes) (x : Bytes) (rest : List Bytes) :
    List Finding :=
  let pair := match rest with
    | y :: _ => some (x, y)
    | [] => before.map fun y => (y, x)
  if pair.all fun (y, z) => isOrdered y z then [] else [.disorder file]

/-- The lines of two files in order, given the line before in each. The fuel bounds the lines. -/
def compared : Nat → Option Bytes → Option Bytes → List Bytes → List Bytes → List Finding
  | 0, _, _, _, _ => []
  | _ + 1, _, _, [], [] => []
  | fuel + 1, p, q, x :: xs, [] =>
    .line 0 x :: disorderAfter 1 p x xs ++ compared fuel (some x) q xs []
  | fuel + 1, p, q, [], y :: ys =>
    .line 1 y :: disorderAfter 2 q y ys ++ compared fuel p (some y) [] ys
  | fuel + 1, p, q, x :: xs, y :: ys =>
    if x = y then
      .line 2 x :: disorderAfter 1 p x xs ++ disorderAfter 2 q y ys
        ++ compared fuel (some x) (some y) xs ys
    else if isOrdered x y then
      .line 0 x :: disorderAfter 1 p x xs ++ compared fuel (some x) q xs (y :: ys)
    else
      .line 1 y :: disorderAfter 2 q y ys ++ compared fuel p (some y) (x :: xs) ys

namespace Finding

/-- Is it a line that only one file has? -/
def isUnpaired : Finding → Bool
  | .line column _ => column < 2
  | .disorder _ => false

/-- The file that is not in order, if that is what was found. -/
def disorder? : Finding → Option Nat
  | .disorder file => some file
  | .line _ _ => none

/-- The findings that are told: up to the first file out of order if order is checked, and none
about order before a line without its pair if it is not. -/
def told (isChecked isQuiet : Bool) (found : List Finding) : List Finding :=
  let isLine (f : Finding) : Bool := f.disorder?.isNone
  if isChecked then
    let front := found.takeWhile isLine
    front ++ (found.drop front.length).take 1
  else if isQuiet then found.filter isLine
  else
    let paired := found.takeWhile fun f => !f.isUnpaired
    paired.filter isLine ++ found.drop paired.length

end Finding

/-- Run a utility on the lines of two files. -/
def withTwoFiles (table : OptionTable)
    (body : Invocation → Usage → List Bytes → List Bytes → Task Nat) : Utility :=
  withUsage table 1 fun i u => do
    match u.operands with
    | [first, second] =>
      match ← readInput first, ← readInput second with
      | .ok x, .ok y => body i u (lines x) (lines y)
      | .error e, _ =>
        complainOf i.name first e
        return 1
      | _, .error e =>
        complainOf i.name second e
        return 1
    | [] => missingOperand i.name
    | [first] =>
      complain i.name [Bytes.ofString "missing operand after ", cited first]
      hint i.name
      return 1
    | _ :: _ :: extra :: _ => extraOperand i.name extra

/-- The first file whose lines are not in order, if there is one. -/
def disordered? (first second : List Bytes) : Option Nat :=
  let isSorted (ls : List Bytes) : Bool := (ls.zip (ls.drop 1)).all fun (x, y) => isOrdered x y
  if !isSorted first then some 1 else if !isSorted second then some 2 else none

/-- Compare two files line by line. -/
def comm : Utility :=
  let table : OptionTable :=
    { flags := "123zoc".toList, valued := ['d']
      long := [("output-delimiter", 'd'), ("check-order", 'c'), ("nocheck-order", 'o')] }
  withTwoFiles table fun i u first second => do
    let hidden := [u.has '1', u.has '2', u.has '3']
    let separator := (u.value? 'd').getD [9]
    let found := Finding.told (u.has 'c') (u.has 'o')
      (compared (first.length + second.length + 1) none none first second)
    let shown := found.filterMap fun
      | .line column text =>
        if hidden.getD column false then none
        else
          let tabs := ((hidden.take column).filter (! ·)).length
          some ((List.replicate tabs separator).flatten ++ text)
      | .disorder _ => none
    let code ← emit i.name (unlines shown)
    match (found.filterMap Finding.disorder?).eraseDups with
    | [] => return code
    | files =>
      for file in files do
        complain i.name [Bytes.ofString s!"file {file} is not in sorted order"]
      if !u.has 'c' then complain i.name [Bytes.ofString "input is not in sorted order"]
      return 1

/-- How lines are joined. -/
structure JoinStyle where
  /-- The character between fields; runs of blanks if there is none. -/
  separator? : Option Char := none
  /-- The fields of the two files that are compared, counted from zero. -/
  keys : Nat × Nat := (0, 0)
  /-- The files whose lines without a partner are shown. -/
  unpaired : List Nat := []
  /-- Are lines with a partner left out? -/
  hidesPaired : Bool := false
  /-- The text for a field that is missing. -/
  filler : Chars := []
  /-- Which fields are shown: of a file, or the one compared by. -/
  shown? : Option (List (Nat × Nat)) := none

namespace JoinStyle

/-- The fields of a line. -/
def fields (s : JoinStyle) (line : Chars) : List Chars :=
  match s.separator? with
  | some c => line.splitOn c
  | none => ((line.map fun c => if c = '\t' then ' ' else c).splitOn ' ').filter (· ≠ [])

/-- The output line of fields. -/
def line (s : JoinStyle) (parts : List Chars) : Chars :=
  (parts.intersperse [s.separator?.getD ' ']).flatten

/-- The line for two partners, or for one line alone. -/
def row (s : JoinStyle) (first? second? : Option (List Chars)) : Chars :=
  let first := first?.getD []
  let second := second?.getD []
  let key := if first?.isSome then first.getD s.keys.1 [] else second.getD s.keys.2 []
  match s.shown? with
  | none => s.line (key :: first.eraseIdx s.keys.1 ++ second.eraseIdx s.keys.2)
  | some wanted =>
    s.line (wanted.map fun (file, i) =>
      let field := if file = 0 then some key else if file = 1 then first[i]? else second[i]?
      match field with
      | some [] | none => s.filler
      | some text => text)

/-- The lines of two files joined, those of the first file one after the other; the fuel bounds the
groups of lines with the same key. -/
def rows (s : JoinStyle) : Nat → List (List Chars) → List (List Chars) → List Chars
  | 0, _, _ => []
  | fuel + 1, first, second =>
    let alone (n : Nat) (row : Chars) : List Chars := if s.unpaired.contains n then [row] else []
    match first, second with
    | [], [] => []
    | x :: xs, [] => alone 1 (s.row (some x) none) ++ rows s fuel xs []
    | [], y :: ys => alone 2 (s.row none (some y)) ++ rows s fuel [] ys
    | x :: xs, y :: ys =>
      let key (row : List Chars) (i : Nat) : Bytes := Latin.toBytes (row.getD i [])
      let a := key x s.keys.1
      let b := key y s.keys.2
      if a = b then
        let lefts := first.takeWhile fun r => key r s.keys.1 = a
        let rights := second.takeWhile fun r => key r s.keys.2 = a
        let pairs := lefts.flatMap fun l => rights.map fun r => s.row (some l) (some r)
        (if s.hidesPaired then [] else pairs)
          ++ rows s fuel (first.drop lefts.length) (second.drop rights.length)
      else if isOrdered a b then alone 1 (s.row (some x) none) ++ rows s fuel xs (y :: ys)
      else alone 2 (s.row none (some y)) ++ rows s fuel (x :: xs) ys

end JoinStyle

/-- The fields that a text such as `1.2,0` tells. -/
def shownFields? (text : Chars) : Option (List (Nat × Nat)) :=
  ((text.map fun c => if c = ',' then ' ' else c).splitOn ' ' |>.filter (· ≠ [])).mapM fun part =>
    match part with
    | ['0'] => some (0, 0)
    | '1' :: '.' :: digits => ((Numeral.digits? digits).filter (0 < ·)).map fun n => (1, n - 1)
    | '2' :: '.' :: digits => ((Numeral.digits? digits).filter (0 < ·)).map fun n => (2, n - 1)
    | _ => none

/-- Join the lines of two files by a field. -/
def join : Utility :=
  withTwoFiles { valued := "avtjeo12".toList } fun i u first second => do
    let number (c : Char) : Option Nat := (u.value? c).bind fun s => Numeral.digits? (Latin.ofBytes s)
    let key (c : Char) : Nat := ((number c).orElse fun _ => number 'j').getD 1 - 1
    let files := (u.options.filter fun (c, _) => c = 'a' || c = 'v').filterMap fun (_, value) =>
      Numeral.digits? (Latin.ofBytes value)
    let style : JoinStyle :=
      { separator? := (u.value? 't').bind fun s => (Latin.ofBytes s).head?
        keys := (key '1', key '2'), unpaired := files, hidesPaired := u.has 'v'
        filler := ((u.value? 'e').map Latin.ofBytes).getD []
        shown? := (u.value? 'o').bind fun s => shownFields? (Latin.ofBytes s) }
    let rowsOf (ls : List Bytes) : List (List Chars) := ls.map fun l => style.fields (Latin.ofBytes l)
    let joined := style.rows (first.length + second.length + 1) (rowsOf first) (rowsOf second)
    let code ← emit i.name (unlines (joined.map Latin.toBytes))
    let keysOf (k : Nat) (ls : List Bytes) : List Bytes :=
      (rowsOf ls).map fun row => Latin.toBytes (row.getD k [])
    let keys := (keysOf style.keys.1 first, keysOf style.keys.2 second)
    let isPaired := keys.1.all keys.2.contains && keys.2.all keys.1.contains
    if !isPaired && (disordered? keys.1 keys.2).isSome then
      complain i.name [Bytes.ofString "input is not in sorted order"]
      return 1
    return code

end CommandExpr.Machine.Utility
