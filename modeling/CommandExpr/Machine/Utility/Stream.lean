import CommandExpr.Machine.Utility.Basic

/-!
# Copying and cutting streams

The utilities that pass on their input: whole, in part, or counted.

## Main definitions

* `Utility.cat`, `Utility.tee` — the whole input
* `Utility.head`, `Utility.tail` — its start, its end
* `Utility.tac` — its lines, the last one first
* `Utility.wc` — how much of it there is
-/

namespace CommandExpr.Machine.Utility

/-! ## Copying -/

/-- Copy from one descriptor to others, within so many rounds; the error of the reading side or of
the first writing side that has one. -/
def copyRounds (source : Nat) (targets : List Nat) : Nat → Task (Except (Bool × Errno) Unit)
  | 0 => return .ok ()
  | fuel + 1 => do
    match ← Task.read source Task.chunk with
    | .error e => return .error (true, e)
    | .ok [] => return .ok ()
    | .ok bytes =>
      for target in targets do
        if let .error e ← Task.write target bytes then return .error (false, e)
      copyRounds source targets fuel

/-- The words for an error of the writing side. -/
def writeError (name : String) (e : Errno) : Task Unit :=
  complain name [Bytes.ofString "write error: ", reason e]

/-- Copy a descriptor to the standard output; the exit code. -/
def copyOut (name : String) (file : Bytes) (fd : Nat) : Task Nat := do
  match ← copyRounds fd [1] Task.rounds with
  | .ok () => return 0
  | .error (true, e) =>
    complainOf name file e
    return 1
  | .error (false, e) =>
    writeError name e
    Task.exit 1

/-- Run a task on each input file; the greatest exit code. -/
def overInputs (name : String) (files : List Bytes) (body : Bytes → Nat → Task Nat) : Task Nat := do
  let mut code := 0
  for file in (if files.isEmpty then [dash] else files) do
    match ← withInput file (body file) with
    | .ok c => code := max code c
    | .error e =>
      complainOf name file e
      code := max code 1
  return code

/-- How lines are marked. -/
structure Marks where
  /-- Are lines numbered? -/
  numbered : Bool
  /-- Are only lines that are not empty numbered? -/
  skipsEmpty : Bool
  /-- Is each line's end shown? -/
  showsEnds : Bool
  /-- Are tabs shown? -/
  showsTabs : Bool
  /-- Are bytes that do not print shown? -/
  showsBytes : Bool
  /-- Are empty lines after the first one left out? -/
  squeezes : Bool

/-- Does a marking leave everything as it is? -/
def Marks.isPlain (m : Marks) : Bool :=
  !(m.numbered || m.showsEnds || m.showsTabs || m.showsBytes || m.squeezes)

/-- A byte as it is shown. -/
def Marks.shown (m : Marks) (b : UInt8) : Bytes :=
  if b = 9 then (if m.showsTabs then [94, 73] else [9])
  else if !m.showsBytes || b = Bytes.newline then [b]
  else
    let caret (b : UInt8) : Bytes :=
      if b < 32 then [94, b + 64] else if b = 127 then [94, 63] else [b]
    if b < 128 then caret b else [77, 45] ++ caret (b - 128)

/-- The number in front of a line. -/
def lineNumber (n : Nat) : Bytes :=
  let digits := Nat.toDigits 10 n
  Latin.toBytes (List.replicate (6 - digits.length) ' ' ++ digits ++ ['\t'])

/-- Mark lines: given the number of the next line and whether the one before was empty. -/
def Marks.apply (m : Marks) : Nat → Bool → List Bytes → List Bytes
  | _, _, [] => []
  | n, wasEmpty, line :: rest =>
    if line.isEmpty && wasEmpty && m.squeezes then m.apply n true rest
    else
      let isCounted := m.numbered && !(m.skipsEmpty && line.isEmpty)
      let front := if isCounted then lineNumber n else []
      let back := if m.showsEnds then [36] else []
      (front ++ line.flatMap m.shown ++ back) ::
        m.apply (if isCounted then n + 1 else n) line.isEmpty rest

/-- The marked text; a line that has no end keeps having none. -/
def Marks.text (m : Marks) (s : Bytes) : Bytes :=
  let hasEnd := s.getLast? = some Bytes.newline
  let m' := if hasEnd then m else { m with showsEnds := false }
  match (lines s).reverse with
  | [] => []
  | last :: front =>
    if hasEnd then unlines (m.apply 1 false (lines s))
    else
      let marked := m.apply 1 false front.reverse
      let whole := m'.apply 1 false (front.reverse ++ [last])
      unlines marked ++ (whole.getLast?.getD [])

/-- Copy the input files to the output, one after the other. -/
def cat : Utility :=
  let table : OptionTable :=
    { flags := "AbeEnstTuv".toList
      long := [("show-all", 'A'), ("number-nonblank", 'b'), ("show-ends", 'E'), ("number", 'n'),
        ("squeeze-blank", 's'), ("show-tabs", 'T'), ("show-nonprinting", 'v')] }
  withUsage table 1 fun i u => do
    let has (cs : String) : Bool := cs.toList.any u.has
    let marks : Marks := ⟨has "nb", has "b", has "AeE", has "AtT", has "Aetv", has "s"⟩
    if marks.isPlain then overInputs i.name u.operands (copyOut i.name)
    else
      let (bytes, code) ← readInputs i.name u.operands
      return max code (← emit i.name (marks.text bytes))

/-- Copy the standard input to the output and to files. -/
def tee : Utility :=
  withUsage { flags := "ai".toList, long := [("append", 'a')] } 1 fun i u => do
    let mut targets := [1]
    let mut code := 0
    for file in u.operands do
      let mode : OpenMode :=
        { isWritable := true, creates := true, isAppending := u.has 'a', truncates := !u.has 'a' }
      match ← Task.open file mode with
      | .ok fd => targets := targets ++ [fd]
      | .error e =>
        complainOf i.name file e
        code := 1
    match ← copyRounds 0 targets Task.rounds with
    | .ok () => return code
    | .error (_, e) =>
      writeError i.name e
      return 1

/-- The lines of a text, the last one first. -/
def backward (s : Bytes) : Bytes :=
  let all := lines s
  if s.getLast? = some Bytes.newline || s.isEmpty then unlines all.reverse
  else match all.reverse with
    | last :: rest => last ++ unlines rest
    | [] => []

/-- Write the lines of each input file, the last one first. -/
def tac : Utility :=
  withUsage {} 1 fun i u => do
    let mut code := 0
    for file in (if u.operands.isEmpty then [dash] else u.operands) do
      match ← withInput file Task.readAll with
      | .ok (.ok bytes) => code := max code (← emit i.name (backward bytes))
      | .ok (.error e) =>
        complain i.name [named file, Bytes.ofString ": read error: ", reason e]
        code := 1
      | .error e =>
        complain i.name [Bytes.ofString "failed to open ", quoted file,
          Bytes.ofString " for reading: ", reason e]
        code := 1
    return code

/-! ## Starts and ends -/

/-- How much of a stream is wanted. -/
structure Portion where
  /-- Is it counted in bytes, not in lines? -/
  isBytes : Bool
  /-- The sign in front of the number. -/
  sign : Option Char
  /-- The number. -/
  count : Nat

/-- The factor that a suffix stands for. -/
def factor? : Chars → Option Nat
  | [] => some 1
  | ['b'] => some 512
  | ['k'] | ['K'] => some 1024
  | ['m'] | ['M'] => some (1024 ^ 2)
  | ['G'] => some (1024 ^ 3)
  | ['k', 'B'] => some 1000
  | ['M', 'B'] => some (1000 ^ 2)
  | ['G', 'B'] => some (1000 ^ 3)
  | _ => none

/-- The portion that a text tells. -/
def Portion.ofBytes? (isBytes : Bool) (text : Bytes) : Option Portion :=
  let s := Latin.ofBytes text
  let (sign, body) := match s with
    | '-' :: rest => (some '-', rest)
    | '+' :: rest => (some '+', rest)
    | _ => (none, s)
  let digits := body.takeWhile isDigit
  match Numeral.digits? digits, factor? (body.drop digits.length) with
  | some n, some factor => some ⟨isBytes, sign, n * factor⟩
  | _, _ => none

/-- A number with a sign in the place of the first option, as the option that it stands for. -/
def modern (signs : Chars) (args : List Bytes) : List Bytes :=
  match args with
  | arg :: rest =>
    match Latin.ofBytes arg with
    | sign :: c :: cs =>
      if signs.contains sign && isDigit c then
        let number := if sign = '+' then sign :: c :: cs else c :: cs
        Bytes.ofString "-n" :: Latin.toBytes number :: rest
      else args
    | _ => args
  | [] => []

/-- Options of the utilities that take a portion. -/
def portionTable (more : Chars) : OptionTable :=
  { flags := "qv".toList ++ more, valued := "nc".toList
    long := [("lines", 'n'), ("bytes", 'c'), ("quiet", 'q'), ("silent", 'q'), ("verbose", 'v')] }

/-- The portion that the options tell; ten lines if they do not. -/
def portionOf (i : Invocation) (u : Usage) : Task (Option Portion) := do
  match u.last? ['n', 'c'] with
  | none => return some ⟨false, none, 10⟩
  | some c =>
    let value := (u.value? c).getD []
    match Portion.ofBytes? (c = 'c') value with
    | some p => return some p
    | none =>
      let unit := if c = 'c' then "bytes" else "lines"
      complain i.name [Bytes.ofString s!"invalid number of {unit}: ", cited value]
      return none

/-- The name of an input file in a heading. -/
def headingName (file : Bytes) : Bytes :=
  if file = dash then Bytes.ofString "standard input" else file

/-- Run a task on each input file, with headings between several. -/
def underHeadings (i : Invocation) (u : Usage) (body : Bytes → Nat → Task Nat) : Task Nat := do
  let files := if u.operands.isEmpty then [dash] else u.operands
  let hasHeadings := match u.last? ['q', 'v'] with
    | some 'v' => true
    | some _ => false
    | none => 1 < files.length
  let mut code := 0
  let mut isFirst := true
  for file in files do
    let heading := (if isFirst then [] else [Bytes.newline])
      ++ Bytes.ofString "==> " ++ headingName file ++ Bytes.ofString " <==\n"
    let result ← withInput file fun fd => do
      if hasHeadings then
        let _ ← emit i.name heading
      body file fd
    match result with
    | .ok c =>
      code := max code c
      isFirst := false
    | .error e =>
      complain i.name [Bytes.ofString "cannot open ", quoted file,
        Bytes.ofString " for reading: ", reason e]
      code := 1
  return code

/-- How many bytes the first lines of a text take up, and how many lines are still wanted. -/
def linesLength : Nat → Nat → Bytes → Nat × Nat
  | length, 0, _ => (length, 0)
  | length, wanted, [] => (length, wanted)
  | length, wanted + 1, b :: rest =>
    linesLength (length + 1) (if b = Bytes.newline then wanted else wanted + 1) rest

/-- Copy the first lines, within so many rounds; what was read past them is given back. -/
def firstLines (name : String) (file : Bytes) (fd : Nat) : Nat → Nat → Task Nat
  | 0, _ => return 0
  | _, 0 => return 0
  | fuel + 1, wanted => do
    match ← Task.read fd Task.chunk with
    | .error e =>
      complain name [Bytes.ofString "error reading ", quoted (headingName file),
        Bytes.ofString ": ", reason e]
      return 1
    | .ok [] => return 0
    | .ok bytes =>
      let (length, wanted) := linesLength 0 wanted bytes
      if length < bytes.length then
        let _ ← Task.attempt (.moveBack fd (bytes.length - length))
      let code ← emit name (bytes.take length)
      if code = 0 then firstLines name file fd fuel wanted else return code

/-- Copy the first bytes, within so many rounds. -/
def firstBytes (name : String) (file : Bytes) (fd : Nat) : Nat → Nat → Task Nat
  | 0, _ => return 0
  | _, 0 => return 0
  | fuel + 1, wanted => do
    match ← Task.read fd (min wanted Task.chunk) with
    | .error e =>
      complain name [Bytes.ofString "error reading ", quoted (headingName file),
        Bytes.ofString ": ", reason e]
      return 1
    | .ok [] => return 0
    | .ok bytes =>
      let code ← emit name bytes
      if code = 0 then firstBytes name file fd fuel (wanted - bytes.length) else return code

/-- Copy what a reading gives, changed by a function. -/
def transformed (name : String) (f : Bytes → Bytes) (file : Bytes) (fd : Nat) : Task Nat := do
  match ← Task.readAll fd with
  | .ok bytes => emit name (f bytes)
  | .error e =>
    complain name [Bytes.ofString "error reading ", quoted (headingName file),
      Bytes.ofString ": ", reason e]
    return 1

/-- A text split after each line end. -/
def rawLines (s : Bytes) : List Bytes :=
  let all := lines s
  if s.getLast? = some Bytes.newline || s.isEmpty then all.map (· ++ [Bytes.newline])
  else all.dropLast.map (· ++ [Bytes.newline]) ++ [all.getLast?.getD []]

/-- All but the last bytes or lines of a text. -/
def withoutLast (p : Portion) (s : Bytes) : Bytes :=
  if p.isBytes then s.take (s.length - p.count)
  else
    let all := rawLines s
    (all.take (all.length - p.count)).flatten

/-- Copy all but the last bytes or lines; those are given back. -/
def exceptLast (name : String) (p : Portion) (file : Bytes) (fd : Nat) : Task Nat := do
  match ← Task.readAll fd with
  | .ok bytes =>
    let kept := withoutLast p bytes
    let code ← emit name kept
    let _ ← Task.attempt (.moveBack fd (bytes.length - kept.length))
    return code
  | .error e =>
    complain name [Bytes.ofString "error reading ", quoted (headingName file),
      Bytes.ofString ": ", reason e]
    return 1

/-- The start of each input file. -/
def head : Utility := fun i => do
  let run := withUsage (portionTable []) 1 fun i u => do
    match ← portionOf i u with
    | none => return 1
    | some p =>
      underHeadings i u fun file fd =>
        if p.sign = some '-' then exceptLast i.name p file fd
        else if p.isBytes then firstBytes i.name file fd Task.rounds p.count
        else firstLines i.name file fd Task.rounds p.count
  run { i with args := modern ['-'] i.args }

/-- The end of a text: its last bytes or lines, or what starts at one of them. -/
def ending (p : Portion) (s : Bytes) : Bytes :=
  if p.isBytes then
    if p.sign = some '+' then s.drop (p.count - 1) else s.drop (s.length - p.count)
  else
    let all := rawLines s
    let kept := if p.sign = some '+' then all.drop (p.count - 1)
      else all.drop (all.length - p.count)
    kept.flatten

/-- The end of each input file. -/
def tail : Utility := fun i => do
  let run := withUsage (portionTable []) 1 fun i u => do
    match ← portionOf i u with
    | none => return 1
    | some p => underHeadings i u (transformed i.name (ending p))
  run { i with args := modern ['-', '+'] i.args }

/-! ## Counting -/

/-- What is counted in a text. -/
structure Tally where
  /-- Line ends. -/
  lines : Nat := 0
  /-- Words. -/
  words : Nat := 0
  /-- Bytes. -/
  bytes : Nat := 0
  /-- The length of the longest line. -/
  longest : Nat := 0
  /-- The length of the current line. -/
  column : Nat := 0
  /-- Is a word under way? -/
  inWord : Bool := false

namespace Tally

/-- The tally with a byte more. Bytes that do not print neither start nor end a word. -/
def add (t : Tally) (b : UInt8) : Tally :=
  let t := { t with bytes := t.bytes + 1 }
  let ended := { t with words := t.words + (if t.inWord then 1 else 0), inWord := false }
  if b = 10 then
    { ended with lines := t.lines + 1, longest := max t.longest t.column, column := 0 }
  else if b = 13 || b = 12 then { ended with longest := max t.longest t.column, column := 0 }
  else if b = 9 then { ended with column := (t.column / 8 + 1) * 8 }
  else if b = 32 then { ended with column := t.column + 1 }
  else if b = 11 then ended
  else if 32 < b && b < 127 then { t with column := t.column + 1, inWord := true }
  else t

/-- The tally of a text. -/
def ofBytes (s : Bytes) : Tally :=
  let t := s.foldl add {}
  { t with words := t.words + (if t.inWord then 1 else 0), longest := max t.longest t.column }

/-- The tally of two texts. -/
def plus (s t : Tally) : Tally :=
  { lines := s.lines + t.lines, words := s.words + t.words, bytes := s.bytes + t.bytes
    longest := max s.longest t.longest }

/-- The counts that are asked for, in their order. -/
def counts (t : Tally) (wanted : List Char) : List Nat :=
  let parts := [('l', t.lines), ('w', t.words), ('m', t.bytes), ('c', t.bytes), ('L', t.longest)]
  (parts.filter fun (c, _) => wanted.contains c).map (·.2)

/-- A line of counts, each filled up to a width, and a name. -/
def line (t : Tally) (wanted : List Char) (width : Nat) (name : Bytes) : Bytes :=
  let texts := (t.counts wanted).map fun n =>
    let digits := Nat.toDigits 10 n
    Latin.toBytes (List.replicate (width - digits.length) ' ' ++ digits)
  (texts.intersperse [32]).flatten ++ (if name.isEmpty then [] else 32 :: name) ++ [Bytes.newline]

end Tally

/-- The width of counts that are not all of known size. -/
def unknownWidth : Nat := 7

/-- How many digits the sizes of some files take up together. -/
def sizesWidth (sizes : List (Option Nat)) : Nat :=
  let known := (Nat.toDigits 10 (Numeral.total (sizes.filterMap id))).length
  if sizes.any (·.isNone) then max unknownWidth known else known

/-- The size of an input file, unless it is no plain file; nothing if it is missing. -/
def sizeOf (file : Bytes) : Task (Option (Option Nat)) := do
  let reply ← Task.ask (if file = dash then .infoOf 0 else .info file true)
  match reply with
  | .info ⟨.file data _, _, _⟩ => return some (some data.size)
  | .error _ => return if file = dash then some none else none
  | _ => return some none

/-- Count lines, words and bytes. -/
def wc : Utility :=
  let table : OptionTable :=
    { flags := "lwcmL".toList
      long := [("lines", 'l'), ("words", 'w'), ("bytes", 'c'), ("chars", 'm'),
        ("max-line-length", 'L')] }
  withUsage table 1 fun i u => do
    let given := "lwmcL".toList.filter u.has
    let wanted := if given.isEmpty then "lwc".toList else given
    let files := if u.operands.isEmpty then [dash] else u.operands
    let mut sizes : List (Option Nat) := []
    for file in files do
      if let some size ← sizeOf file then sizes := sizes ++ [size]
    let width := if files.length = 1 && wanted.length = 1 then 1 else sizesWidth sizes
    let mut total : Tally := {}
    let mut code := 0
    for file in files do
      let name := if u.operands.isEmpty then [] else file
      if file.isEmpty then
        complain i.name [Bytes.ofString "invalid zero-length file name"]
        code := 1
      else match ← withInput file Task.readAll with
      | .ok (.ok bytes) =>
        let tally := Tally.ofBytes bytes
        total := total.plus tally
        code := max code (← emit i.name (tally.line wanted width name))
      | .ok (.error e) =>
        complainOf i.name file e
        code := max 1 (← emit i.name (Tally.line {} wanted width name))
      | .error e =>
        complainOf i.name file e
        code := 1
    if 1 < files.length then
      code := max code (← emit i.name (total.line wanted width (Bytes.ofString "total")))
    return code

end CommandExpr.Machine.Utility
