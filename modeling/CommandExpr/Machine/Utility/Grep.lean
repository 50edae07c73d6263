import CommandExpr.Machine.Utility.Files
import CommandExpr.Machine.Utility.Pattern
import CommandExpr.Machine.Utility.Stream

/-!
# Searching

The utility that selects the lines of its input in which a pattern is found.

## Main definitions

* `Search.selects` — is a line selected?
* `Utility.grep` — the utility
-/

namespace CommandExpr.Machine

/-- What is searched for, and how. -/
structure Search where
  /-- The alternatives. -/
  patterns : List Pattern
  /-- Does case not count? -/
  foldsCase : Bool
  /-- Are the lines without a match selected? -/
  isInverted : Bool
  /-- Has a match to be a whole line? -/
  isWhole : Bool
  /-- Has a match to be made of whole words? -/
  isWord : Bool

namespace Search

/-- Does a match stand between characters that are in no word? -/
def isBounded (s : Array Char) (i j : Nat) : Bool :=
  !(0 < i && Pattern.isWordAt s (i - 1)) && !Pattern.isWordAt s j

/-- Where the matches that start at a place and count end. -/
def endsAt (q : Search) (s : Array Char) (i : Nat) : List Nat :=
  let all := q.patterns.flatMap fun p => p.stops s q.foldsCase i
  all.filter fun j =>
    if q.isWhole then i = 0 && j = s.size
    else if q.isWord then isBounded s i j
    else true

/-- Is a line selected? -/
def selects (q : Search) (line : Chars) : Bool :=
  let s := line.toArray
  q.isInverted != (List.range (s.size + 1)).any fun i => !(q.endsAt s i).isEmpty

/-- The matches of a line that are not empty, from the left, each as long as can be; with where each
starts. -/
def foundFrom (q : Search) (s : Array Char) : Nat → Nat → List (Nat × Chars)
  | 0, _ => []
  | fuel + 1, i =>
    match ((q.endsAt s i).filter (i < ·)).max? with
    | some j => (i, (s.extract i j).toList) :: foundFrom q s fuel j
    | none => foundFrom q s fuel (i + 1)

/-- The matches of a line that are not empty, each with where it starts. -/
def found (q : Search) (line : Chars) : List (Nat × Chars) :=
  foundFrom q line.toArray (line.length + 1) 0

end Search

/-- What is shown of a search. -/
structure SearchReport where
  /-- Nothing. -/
  isQuiet : Bool
  /-- How many lines are selected. -/
  counts : Bool
  /-- The names of files with such lines. -/
  listsFound : Bool
  /-- The names of files without such lines. -/
  listsMissing : Bool
  /-- The matches alone. -/
  showsMatches : Bool
  /-- The numbers of the lines. -/
  showsNumbers : Bool
  /-- How many bytes stand before. -/
  showsOffsets : Bool
  /-- The name of the file in front. -/
  showsName : Bool
  /-- Are files with a zero byte searched as text? -/
  isText : Bool
  /-- How many lines are selected at most. -/
  most : Option Nat
  /-- How many lines before and after a selected one are shown too; none for no such wish. -/
  context : Option (Nat × Nat)

namespace SearchReport

/-- The name under which an input file is shown. -/
def nameOf (file : Bytes) : Bytes :=
  if file = Utility.dash then Bytes.ofString "(standard input)" else file

/-- The front of a line that is shown, given its number and how many bytes stand before it. -/
def front (r : SearchReport) (file : Bytes) (place : Option (Nat × Nat)) (mark : UInt8) : Bytes :=
  let shown (isWanted : Bool) (n : Nat) : Bytes :=
    if isWanted then Bytes.ofString (toString n) ++ [mark] else []
  (if r.showsName then nameOf file ++ [mark] else [])
    ++ match place with
      | some (n, offset) => shown r.showsNumbers n ++ shown r.showsOffsets offset
      | none => []

/-- The numbered lines that are shown, each with the word whether it is selected, given the numbers
of the selected ones in order. -/
def around (before after : Nat) (chosen : List Nat) (numbered : List (Bytes × Nat)) :
    List (Bytes × Nat × Bool) :=
  let step : List (Bytes × Nat × Bool) × Option Nat × List Nat → Bytes × Nat →
      List (Bytes × Nat × Bool) × Option Nat × List Nat := fun (shown, last, coming) (line, n) =>
    let isNear := last.any (n ≤ · + after) || (coming.head?.any (· ≤ n + before))
    if coming.head? = some n then ((line, n, true) :: shown, some n, coming.drop 1)
    else if isNear then ((line, n, false) :: shown, last, coming)
    else (shown, last, coming)
  (numbered.foldl step ([], none, chosen)).1.reverse

/-- The mark in front of a selected line. -/
def colon : UInt8 := 58

/-- The mark in front of a line that is shown because of others. -/
def hyphen : UInt8 := 45

/-- The line between two groups of lines that are shown. -/
def divider : Bytes := [hyphen, hyphen]

/-- Lines with the front that belongs to them, and with dividers between groups; `last` is the number
of the line shown before, zero if that was in another file, and `offsets` tells how many bytes stand
before a line. -/
def grouped (r : SearchReport) (file : Bytes) (offsets : Array Nat) :
    Option Nat → List (Bytes × Nat × Bool) → List Bytes
  | _, [] => []
  | last, (line, n, isChosen) :: rest =>
    let place := (n, offsets.getD (n - 1) 0)
    let front := r.front file (some place) (if isChosen then colon else hyphen)
    let isNew := last.any fun m => m = 0 || m + 1 < n
    let others := grouped r file offsets (some n) rest
    if isNew then divider :: (front ++ line) :: others else (front ++ line) :: others

end SearchReport

namespace Utility

/-- The options of the search utility. -/
def grepTable : OptionTable :=
  { flags := "EFGivcnqsoxwlLhHaUbrRuTZPy".toList, valued := "emABCf".toList
    long := [("extended-regexp", 'E'), ("fixed-strings", 'F'), ("basic-regexp", 'G'),
      ("ignore-case", 'i'), ("invert-match", 'v'), ("count", 'c'), ("line-number", 'n'),
      ("quiet", 'q'), ("silent", 'q'), ("no-messages", 's'), ("only-matching", 'o'),
      ("line-regexp", 'x'), ("word-regexp", 'w'), ("files-with-matches", 'l'),
      ("files-without-match", 'L'), ("no-filename", 'h'), ("with-filename", 'H'), ("text", 'a'),
      ("regexp", 'e'), ("max-count", 'm'), ("after-context", 'A'), ("before-context", 'B'),
      ("context", 'C'), ("byte-offset", 'b'), ("recursive", 'r'), ("file", 'f'),
      ("line-buffered", 'u'), ("color", 'u'), ("colour", 'u')] }

/-- Search one input file; was a line selected? The flag tells whether lines of another file were
shown before. -/
def searchInput (i : Invocation) (q : Search) (r : SearchReport) (file : Bytes) (hasShown : Bool)
    (fd : Nat) : Task (Except Errno Bool) := do
  match ← Task.readAll fd with
  | .error e => return .error e
  | .ok bytes =>
    let numbered := (lines bytes).zipIdx 1
    let offsets := ((lines bytes).foldl (fun (seen : Array Nat × Nat) line =>
      (seen.1.push seen.2, seen.2 + line.length + 1)) (#[], 0)).1
    let all := numbered.filter fun (line, _) => q.selects (Latin.ofBytes line)
    let chosen := match r.most with
      | some n => all.take n
      | none => all
    if let some n := r.most then
      if chosen.length = n then
        let last := (chosen.getLast?.map (·.2)).getD 0
        let used := Numeral.total ((numbered.take last).map fun (line, _) => line.length + 1)
        let _ ← Task.attempt (.moveBack fd (bytes.length - used))
    let isFound := !chosen.isEmpty
    if r.isQuiet then return .ok isFound
    if r.listsFound || r.listsMissing then
      if r.listsFound = isFound then
        let _ ← emit i.name (SearchReport.nameOf file ++ [Bytes.newline])
      return .ok isFound
    if r.counts then
      let _ ← emit i.name (r.front file none SearchReport.colon
        ++ Bytes.ofString (toString chosen.length) ++ [Bytes.newline])
    else if Bytes.hasNul bytes && !r.isText then
      if isFound then
        complain i.name [SearchReport.nameOf file, Bytes.ofString ": binary file matches"]
    else
      let shown := if let (some (before, after), false) := (r.context, r.showsMatches) then
        r.grouped file offsets (if hasShown then some 0 else none)
          (SearchReport.around before after (chosen.map (·.2)) numbered)
      else chosen.flatMap fun (line, n) =>
        let start := offsets.getD (n - 1) 0
        let parts := if !r.showsMatches then [(start, line)]
          else if q.isInverted then []
          else (q.found (Latin.ofBytes line)).map fun (i, part) => (start + i, Latin.toBytes part)
        parts.map fun (offset, part) => r.front file (some (n, offset)) SearchReport.colon ++ part
      if !shown.isEmpty then
        if (← emit i.name (unlines shown)) ≠ 0 then Task.exit 2
    return .ok isFound

/-- The patterns that a text spells, one a line. -/
def patternsOf (dialect : Pattern.Dialect) (texts : List Bytes) : Except String (List Pattern) :=
  (texts.flatMap (Bytes.splitOn Bytes.newline)).mapM fun t =>
    Pattern.ofText dialect (Latin.ofBytes t)

/-- The files at and below a path, within so many levels. -/
def filesBelow : Nat → Bytes → Task (List Bytes)
  | 0, _ => return []
  | fuel + 1, path => do
    match ← Task.info path true with
    | .ok ⟨.directory _ entries _, _, _⟩ =>
      let mut files : List Bytes := []
      for (name, _) in entries do
        files := files ++ (← filesBelow fuel (inside path name))
      return files
    | _ => return [path]

/-- An option that asks for so many lines around, from a number. -/
def contextOption (arg : Bytes) : Bytes :=
  match Latin.ofBytes arg with
  | '-' :: c :: cs => if (c :: cs).all isDigit then Bytes.ofString "-C" ++ arg.drop 1 else arg
  | _ => arg

/-- Select the lines of the input in which a pattern is found. -/
def grep : Utility := fun i => do
  let i := { i with args := i.args.map contextOption }
  let usage := Task.warn (s!"Usage: {i.name} [OPTION]... PATTERNS [FILE]...\n"
    ++ s!"Try '{i.name} --help' for more information.\n")
  match readUsage grepTable i.args with
  | .error message =>
    complain i.name [Latin.toBytes message]
    usage
    return 2
  | .ok u =>
    let mut given : List Bytes := []
    for (c, value) in u.options do
      if c = 'e' then given := given ++ [value]
      if c = 'f' then
        match ← readInput value with
        | .ok bytes => given := given ++ lines bytes
        | .error e =>
          complain i.name [value, Bytes.ofString ": ", reason e]
          return 2
    let isGiven := u.has 'e' || u.has 'f'
    let (texts, files) := if isGiven then (given, u.operands)
      else (u.operands.take 1, u.operands.drop 1)
    if texts.isEmpty && !isGiven then
      usage
      return 2
    let isDeep := u.has 'r' || u.has 'R'
    let mut found : List Bytes := []
    if isDeep then
      for path in (if files.isEmpty then [[Path.dot]] else files) do
        let below ← filesBelow deepest path
        found := found ++ (if files.isEmpty then below.map (·.drop 2) else below)
    let isBelow ← if isDeep then isDirectoryAt (files.headD [Path.dot]) else pure false
    let isSeveral := 1 < files.length || isBelow
    let files := if isDeep then found else files
    let dialect := match u.last? ['E', 'F', 'G', 'P'] with
      | some 'E' | some 'P' => Pattern.Dialect.extended
      | some 'F' => .fixed
      | _ => .basic
    let limit := (u.value? 'm').map fun v => Numeral.integer? (Latin.ofBytes v)
    if limit = some none then
      complain i.name [Bytes.ofString "invalid max count"]
      return 2
    match patternsOf dialect texts with
    | .error message =>
      complain i.name [Bytes.ofString message]
      return 2
    | .ok patterns =>
      let q : Search := ⟨patterns, u.has 'i' || u.has 'y', u.has 'v', u.has 'x', u.has 'w'⟩
      let showsName := match u.last? ['h', 'H'] with
        | some 'H' => true
        | some _ => false
        | none => isSeveral
      let most := limit.join.bind fun n => if n < 0 then none else some n.toNat
      let length (c : Char) : Option Nat :=
        match (u.last? [c, 'C']).bind u.value? with
        | some v => Numeral.digits? (Latin.ofBytes v)
        | none => none
      let context := match length 'B', length 'A' with
        | none, none => none
        | before, after => some (before.getD 0, after.getD 0)
      let r : SearchReport :=
        ⟨u.has 'q', u.has 'c', u.has 'l', u.has 'L', u.has 'o', u.has 'n', u.has 'b', showsName,
          u.has 'a', most, context⟩
      let mut isFound := false
      let mut isBad := false
      for file in (if files.isEmpty && !isDeep then [dash] else files) do
        let result ← withInput file (searchInput i q r file isFound)
        match result with
        | .ok (.ok b) => isFound := isFound || b
        | .ok (.error e) | .error e =>
          isBad := true
          if !u.has 's' then
            complain i.name [SearchReport.nameOf file, Bytes.ofString ": ", reason e]
      return if isFound && (r.isQuiet || !isBad) then 0 else if isBad then 2 else 1

/-- Search with one dialect. -/
def grepAs (option : String) : Utility := fun i =>
  grep ⟨"grep", Bytes.ofString option :: i.args, i.env⟩

end Utility

end CommandExpr.Machine
