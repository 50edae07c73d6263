import CommandExpr.Machine.Utility.Escape
import CommandExpr.Machine.Utility.Files

/-!
# What is known about files

The utilities that list directories, tell what a file is, and take paths apart. All files belong to
one user, who is number zero.

## Main definitions

* `Utility.stat` — what is known about a file, in a given format
* `Utility.ls` — what is in a directory
* `Utility.readlink`, `Utility.realpath` — where links lead
* `Utility.basename`, `Utility.dirname`, `Utility.pwd` — parts of paths
-/

namespace CommandExpr.Machine

namespace Node

/-- How many bytes a directory or a link target takes up, and how many a file holds. -/
def size : Node → Nat
  | file data _ => data.size
  | directory .. => 4096
  | link target => target.length
  | device _ | image _ | descriptor _ | pipe => 0

/-- The number that stands for the kind of a node, above its permission bits. -/
def kindBits : Node → Nat
  | file .. | image _ => 0o100000
  | directory .. => 0o40000
  | link _ | descriptor _ => 0o120000
  | device _ => 0o20000
  | pipe => 0o10000

/-- The letter that stands for the kind of a node. -/
def kindLetter : Node → Char
  | file .. | image _ => '-'
  | directory .. => 'd'
  | link _ | descriptor _ => 'l'
  | device _ => 'c'
  | pipe => 'p'

/-- The kind of a node in words. -/
def kindName : Node → String
  | file data _ => if data.isEmpty then "regular empty file" else "regular file"
  | image _ => "regular file"
  | directory .. => "directory"
  | link _ | descriptor _ => "symbolic link"
  | device _ => "character special file"
  | pipe => "fifo"

/-- How many units of half a kilobyte a node takes up; files get them by eights. -/
def blocks : Node → Nat
  | file data _ => (data.size + 4095) / 4096 * 8
  | directory .. => 8
  | _ => 0

/-- Permission bits as letters, the kind in front. -/
def modeText (n : Node) : Chars :=
  let triple (shift : Nat) (special : Nat) (letter : Char) : Chars :=
    let bits := n.mode >>> shift
    let runs := bits &&& 1 ≠ 0
    [if bits &&& 4 ≠ 0 then 'r' else '-', if bits &&& 2 ≠ 0 then 'w' else '-',
      if n.mode &&& special ≠ 0 then (if runs then letter else letter.toUpper)
      else if runs then 'x' else '-']
  n.kindLetter :: (triple 6 0o4000 's' ++ triple 3 0o2000 's' ++ triple 0 0o1000 't')

end Node

namespace Utility

/-- The name of the user and of the group that all files belong to. -/
def ownerName : String := "root"

/-! ## Formats -/

/-- What a letter of a format stands for, of the file of a path. -/
def fileDetail (path : Bytes) (i : FileInfo) (letter : Char) : Chars :=
  let decimal (n : Nat) : Chars := Nat.toDigits 10 n
  let n := i.node
  match letter with
  | 'a' => Nat.toDigits 8 n.mode
  | 'A' => n.modeText
  | 'b' => decimal n.blocks
  | 'B' => decimal 512
  | 'f' => Nat.toDigits 16 (n.kindBits + n.mode)
  | 'F' => n.kindName.toList
  | 'h' => decimal i.links
  | 'i' => decimal i.id
  | 'n' => Latin.ofBytes path
  | 'N' =>
    match n with
    | .link target => Latin.ofBytes (quoted path) ++ " -> ".toList ++ Latin.ofBytes (quoted target)
    | _ => Latin.ofBytes (quoted path)
  | 'o' => decimal 4096
  | 's' => decimal n.size
  | 'd' | 'D' | 'g' | 'u' | 't' | 'T' | 'W' | 'X' | 'Y' | 'Z' => decimal 0
  | 'G' | 'U' => ownerName.toList
  | 'm' => ['/']
  | 'w' => ['-']
  | 'x' | 'y' | 'z' => "1970-01-01 00:00:00.000000000 +0000".toList
  | _ => ['?']

/-- Is what a letter of a format stands for a number? -/
def isNumeric (letter : Char) : Bool := "abBdDfghiostTuWXYZ".toList.contains letter

/-- A format filled in for the file of a path; none for a directive without a letter. The fuel bounds
the characters that are read. -/
def filled (style? : Option Escape.Style) (path : Bytes) (i : FileInfo) :
    Nat → Chars → Option Chars
  | 0, _ | _ + 1, [] => some []
  | fuel + 1, '%' :: rest =>
    let flags := rest.takeWhile "-#0+ ".toList.contains
    let rest := rest.drop flags.length
    let width := rest.takeWhile isDigit
    let rest := rest.drop width.length
    let precision := match rest with
      | '.' :: more => some (more.takeWhile isDigit)
      | _ => none
    let rest := rest.drop ((precision.map (·.length + 1)).getD 0)
    match rest with
    | [] => if (flags ++ width).isEmpty && precision.isNone then some ['%'] else none
    | '%' :: rest => (filled style? path i fuel rest).map ('%' :: ·)
    | letter :: rest =>
      let plain := fileDetail path i letter
      let hasSign := flags.contains '#' && letter = 'a' && plain.head? ≠ some '0'
      let text := if hasSign then '0' :: plain else plain
      let limit := precision.map fun p => (Numeral.digits? p).getD 0
      let text := match limit with
        | some n => if isNumeric letter then padStart '0' n text else text.take n
        | none => text
      let width := (Numeral.digits? width).getD 0
      let whole := if flags.contains '-' then padEnd width text
        else padStart (if flags.contains '0' && isNumeric letter then '0' else ' ') width text
      (filled style? path i fuel rest).map (whole ++ ·)
  | fuel + 1, '\\' :: rest =>
    match style? with
    | none => (filled style? path i fuel rest).map ('\\' :: ·)
    | some style =>
      match Escape.meaning style rest with
      | .bytes b rest => (filled style? path i fuel rest).map (Latin.ofBytes b ++ ·)
      | _ =>
        if rest.isEmpty then some ['\\']
        else (filled style? path i fuel (rest.drop 1)).map (rest.take 1 ++ ·)
  | fuel + 1, c :: rest => (filled style? path i fuel rest).map (c :: ·)

/-- Tell what is known about files. -/
def stat : Utility :=
  let table : OptionTable :=
    { flags := "Lt".toList, valued := "cp".toList
      long := [("format", 'c'), ("printf", 'p'), ("dereference", 'L'), ("terse", 't')] }
  withUsage table 1 fun i u => do
    if u.operands.isEmpty then missingOperand i.name
    else overPaths u.operands fun path => do
      let found ← Task.ask (if path = dash then .infoOf 0 else .info path (u.has 'L'))
      match found with
      | .info info =>
        let whole := "  File: %N\n  Size: %s\tBlocks: %b\tIO Block: %o\t%F".toList
        let terse := "%n %s %b %f %u %g %D %i %h %t %T %X %Y %Z %W %o".toList
        let format := match u.last? ['c', 'p'] with
          | some c => Latin.ofBytes ((u.value? c).getD [])
          | none => if u.has 't' then terse else whole
        let isRaw := u.last? ['c', 'p'] = some 'p'
        let style? : Option Escape.Style :=
          if isRaw then some { hasEscape := true, hasHex := true, escapesQuotes := true } else none
        match filled style? path info (format.length + 1) format with
        | some text =>
          emit i.name (Latin.toBytes (if isRaw then text else text ++ ['\n']))
        | none =>
          complain i.name [cited (Latin.toBytes format), Bytes.ofString ": invalid directive"]
          Task.exit 1
      | .error e => failed i.name (if path = dash then "cannot fstat" else "cannot statx") path e
      | _ => return 1

/-! ## Listing -/

/-- What marks the kind of a file in a listing. -/
def kindMark (u : Usage) (n : Node) : Bytes :=
  match n with
  | .directory .. => if u.has 'F' || u.has 'p' then [Bytes.slash] else []
  | .link _ | .descriptor _ => if u.has 'F' && !isLong u then [64] else []
  | .file _ mode => if u.has 'F' && mode &&& 0o111 ≠ 0 then [42] else []
  | .image _ => if u.has 'F' then [42] else []
  | .device _ => []
  | .pipe => if u.has 'F' then [124] else []
where
  /-- Does a listing tell more than names? -/
  isLong (u : Usage) : Bool := "lngo".toList.any u.has

/-- A line of a listing: a name with what is known about the file, if anything is. -/
structure Entry where
  /-- The name as it is shown. -/
  name : Bytes
  /-- The path, to look at what is in a directory. -/
  path : Bytes
  /-- What is known. -/
  info? : Option FileInfo

namespace Entry

/-- The order of a listing. -/
def isBefore (u : Usage) (x y : Entry) : Bool :=
  let key (e : Entry) : Nat := match e.info? with
    | some i => if u.has 'S' then i.node.size else if u.has 't' then i.id else 0
    | none => 0
  if key x = key y then isOrdered x.name y.name else key y < key x

/-- The name with what marks the kind, and what a link points to. -/
def shownName (u : Usage) (e : Entry) : Bytes :=
  match e.info? with
  | none => e.name
  | some i =>
    let target := match i.node with
      | .link target => if kindMark.isLong u then Bytes.ofString " -> " ++ target else []
      | _ => []
    e.name ++ kindMark u i.node ++ target

/-- The parts of a long line in front of the name: links and size are numbers. -/
def columns (u : Usage) (e : Entry) : Chars × Chars × Chars × Chars :=
  match e.info? with
  | none => ("?????????".toList, ['?'], [], ['?'])
  | some i =>
    let owner := if u.has 'n' then ['0'] else ownerName.toList
    let owners := (if u.has 'g' then [] else owner ++ [' ']) ++ (if u.has 'o' then [] else owner ++ [' '])
    (i.node.modeText, Nat.toDigits 10 i.links, owners, Nat.toDigits 10 i.node.size)

/-- The lines of entries. -/
def lines (u : Usage) (entries : List Entry) : List Bytes :=
  if !kindMark.isLong u then entries.map (shownName u)
  else
    let rows := entries.map fun e => (columns u e, e)
    let widest (f : Chars × Chars × Chars × Chars → Chars) : Nat :=
      rows.foldl (fun n (row, _) => max n (f row).length) 0
    rows.map fun (row, e) =>
      let (mode, links, owners, size) := row
      let front := mode ++ ' ' :: padStart ' ' (widest fun r => r.2.1) links ++ ' ' :: owners
        ++ padStart ' ' (widest fun r => r.2.2.2) size ++ " Jan  1 00:00 ".toList
      Latin.toBytes front ++ shownName u e

/-- The line in front of a long listing of a directory. -/
def total (u : Usage) (entries : List Entry) : Bytes :=
  if !kindMark.isLong u then []
  else
    let blocks := Numeral.total (entries.filterMap fun e => e.info?.map fun i => i.node.blocks)
    Bytes.ofString s!"total {blocks / 2}\n"

end Entry

/-- The entries of a directory. -/
def entriesOf (u : Usage) (path : Bytes) (n : Node) : Task (List Entry) := do
  let isHidden (name : Bytes) : Bool := name.head? = some Path.dot
  let dots := if u.has 'a' then [[Path.dot], FileTree.dotDot] else []
  let names := n.entries.map (·.1) |>.filter fun name => u.has 'a' || u.has 'A' || !isHidden name
  let mut entries : List Entry := []
  for name in dots ++ names do
    let below := inside path name
    entries := ⟨name, below, (← Task.info below false).toOption⟩ :: entries
  return arranged u entries
where
  /-- Entries in the order of a listing. -/
  arranged (u : Usage) (entries : List Entry) : List Entry :=
    let sorted := entries.mergeSort (Entry.isBefore u)
    if u.has 'r' then sorted.reverse else sorted

/-- The listings of directories, and of those in them if they are wanted, within so many rounds; and
the code. -/
def listings (name : String) (u : Usage) (hasHeadings : Bool) (trouble : Nat) :
    Nat → List (Bytes × Node) → Task (List Bytes × Nat)
  | 0, _ | _, [] => return ([], 0)
  | fuel + 1, (path, node) :: rest => do
    if !node.allows 4 then
      let _ ← failed name "cannot open directory" path .accessDenied
      let (others, code) ← listings name u hasHeadings trouble fuel rest
      return (others, max trouble code)
    let entries ← entriesOf u path node
    let inner := entries.filterMap fun e => e.info?.bind fun i =>
      if i.node.isDirectory && e.name ≠ [Path.dot] && e.name ≠ FileTree.dotDot then
        some (e.path, i.node)
      else none
    let heading := if hasHeadings then path ++ Bytes.ofString ":\n" else []
    let block := heading ++ Entry.total u entries ++ unlines (Entry.lines u entries)
    let (others, code) ←
      if u.has 'R' then listings name u hasHeadings (min trouble 1) fuel (inner ++ rest)
      else listings name u hasHeadings trouble fuel rest
    return (block :: others, code)

/-- List directories. -/
def ls : Utility :=
  let table : OptionTable :=
    { flags := "aA1dFprRCUfxqbNlngoStLHmsikhZ".toList
      long := [("all", 'a'), ("almost-all", 'A'), ("directory", 'd'), ("reverse", 'r'),
        ("classify", 'F'), ("recursive", 'R')] }
  withUsage table 2 fun i u => do
    let paths := if u.operands.isEmpty then [[Path.dot]] else u.operands
    let follows := u.has 'L' || u.has 'H' || !(u.has 'd' || u.has 'F' || kindMark.isLong u)
    let mut code := 0
    let mut found : List Entry := []
    for path in paths do
      let named : Task (Except Errno FileInfo) := Task.info path false
      let reply ← if follows then Task.info path true else named
      match reply, (← named) with
      | .ok info, _ | .error _, .ok info => found := ⟨path, path, some info⟩ :: found
      | .error e, .error _ =>
        let _ ← failed i.name "cannot access" path e
        code := 2
    let sorted := entriesOf.arranged u found
    let isInner (e : Entry) : Bool := !u.has 'd' && e.info?.any (·.node.isDirectory)
    let files := Entry.lines u (sorted.filter fun e => !isInner e)
    let dirs := (sorted.filter isInner).filterMap fun e => e.info?.map fun i => (e.path, i.node)
    let plain := if files.isEmpty then [] else [unlines files]
    let (blocks, listed) ←
      listings i.name u (1 < paths.length || u.has 'R') 2 Task.rounds dirs
    let written ← emit i.name ((plain ++ blocks).intersperse [Bytes.newline]).flatten
    return max (max code listed) (if written = 0 then 0 else 2)

/-! ## Where links lead -/

/-- Which names of a path have to be there. -/
inductive Presence where
  | all | allButLast | none
  deriving DecidableEq

/-- The path from the root that follows all links, given the names passed already, the last one
first. The fuel bounds the names, `links` the links that are followed. -/
def resolve (needs : Presence) : Nat → Nat → List Bytes → List Bytes → Task (Except Errno (List Bytes))
  | 0, _, _, _ => return .error .linkLoop
  | _ + 1, _, passed, [] => return .ok passed
  | fuel + 1, links, passed, name :: rest => do
    if name = [Path.dot] then resolve needs fuel links passed rest
    else if name = FileTree.dotDot then resolve needs fuel links (passed.drop 1) rest
    else
      let here := name :: passed
      match ← Task.info (absolute here) false with
      | .ok ⟨.link target, _, _⟩ =>
        match links with
        | 0 => return .error .linkLoop
        | links + 1 =>
          let start := if FileTree.isAbsolute target then [] else passed
          resolve needs fuel links start (FileTree.names target ++ rest)
      | .ok i =>
        if rest.isEmpty || i.node.isDirectory || needs = .none then
          resolve needs fuel links here rest
        else return .error .notDirectory
      | .error e =>
        let isAllowed := needs = .none || (needs = .allButLast && rest.isEmpty && e = .notFound)
        if isAllowed then resolve needs fuel links here rest else return .error e
where
  /-- The path from the root of names, the last one first. -/
  absolute (names : List Bytes) : Bytes :=
    if names.isEmpty then [Bytes.slash] else names.reverse.flatMap (Bytes.slash :: ·)

/-- The path from the root that a path stands for once all links are followed. -/
def canonical (needs : Presence) (path : Bytes) : Task (Except Errno Bytes) := do
  if path.isEmpty then return .error .notFound
  let start ← match ← Task.ask .currentDirectory with
    | .bytes dir => pure (if FileTree.isAbsolute path then [] else (FileTree.names dir).reverse)
    | _ => pure []
  let names ← resolve needs FileTree.maxPath FileTree.maxLinks start (FileTree.names path)
  return names.map resolve.absolute

/-- Write what symbolic links point to, or the paths that they stand for. -/
def readlink : Utility :=
  let table : OptionTable :=
    { flags := "nqsvzfem".toList
      long := [("no-newline", 'n'), ("canonicalize", 'f'), ("canonicalize-existing", 'e'),
        ("canonicalize-missing", 'm'), ("quiet", 'q'), ("silent", 's'), ("verbose", 'v'),
        ("zero", 'z')] }
  withUsage table 1 fun i u => do
    let ended : Bytes := if u.has 'z' then [0] else [Bytes.newline]
    if u.operands.isEmpty then missingOperand i.name
    else overPaths u.operands fun path => do
      let result : Except Errno Bytes ← match u.last? ['f', 'e', 'm'] with
        | some c =>
          canonical (if c = 'f' then .allButLast else if c = 'e' then .all else .none) path
        | none =>
          match ← Task.info path false with
          | .ok ⟨.link target, _, _⟩ => pure (.ok target)
          | .ok _ => pure (.error .invalidArgument)
          | .error e => pure (.error e)
      match result with
      | .ok target =>
        emit i.name (if u.has 'n' && u.operands.length = 1 then target else target ++ ended)
      | .error e =>
        if u.has 'v' then complainOf i.name path e
        return 1

/-- Write the paths from the root that paths stand for. -/
def realpath : Utility :=
  let table : OptionTable :=
    { flags := "emqszLP".toList
      long := [("canonicalize-existing", 'e'), ("canonicalize-missing", 'm'), ("quiet", 'q'),
        ("zero", 'z')] }
  withUsage table 1 fun i u => do
    let ended : Bytes := if u.has 'z' then [0] else [Bytes.newline]
    let needs : Presence := match u.last? ['e', 'm'] with
      | some 'e' => .all
      | some _ => .none
      | none => .allButLast
    if u.operands.isEmpty then missingOperand i.name
    else overPaths u.operands fun path => do
      match ← canonical needs path with
      | .ok target => emit i.name (target ++ ended)
      | .error e =>
        if !u.has 'q' then complainOf i.name path e
        return 1

/-! ## Parts of paths -/

/-- Write the last name of a path, without a suffix if one is given. -/
def basename : Utility :=
  withUsage { flags := ['a'], valued := ['s'], isStrict := true } 1 fun i u => do
    let strip (suffix name : Bytes) : Bytes :=
      if suffix ≠ name && suffix.isSuffixOf name then name.take (name.length - suffix.length)
      else name
    if u.has 'a' || u.has 's' then
      let suffix := (u.value? 's').getD []
      emit i.name (unlines (u.operands.map fun path => strip suffix (lastName path)))
    else match u.operands with
      | [] => missingOperand i.name
      | [path] => emit i.name (lastName path ++ [Bytes.newline])
      | [path, suffix] => emit i.name (strip suffix (lastName path) ++ [Bytes.newline])
      | _ :: _ :: extra :: _ => extraOperand i.name extra

/-- Write the directories that paths are in. -/
def dirname : Utility :=
  withUsage {} 1 fun i u => do
    if u.operands.isEmpty then missingOperand i.name
    else emit i.name (unlines (u.operands.map dirOf))

/-- Write the path of the current directory. -/
def pwd : Utility := fun i => do
  match ← Task.ask .currentDirectory with
  | .bytes path => emit i.name (path ++ [Bytes.newline])
  | _ => return 1

end Utility

end CommandExpr.Machine
