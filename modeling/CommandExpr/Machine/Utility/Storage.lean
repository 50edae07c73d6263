import CommandExpr.Machine.Utility.Listing
import CommandExpr.Machine.Utility.Stream

/-!
# Files in pieces

The utilities that copy blocks, change the sizes of files, and spread a file over several.

## Main definitions

* `Utility.dd` — blocks from one file to another
* `Utility.truncate` — the sizes of files
* `Utility.split` — a file spread over several
* `Utility.mktemp`, `Utility.link`, `Utility.unlink` — names
-/

namespace CommandExpr.Machine.Utility

/-! ## Blocks -/

/-- What is copied, and how. -/
structure BlockCopy where
  /-- The input file, if it is not the standard input. -/
  input? : Option Bytes := none
  /-- The output file, if it is not the standard output. -/
  output? : Option Bytes := none
  /-- How many bytes are read at a time. -/
  inputSize : Nat := 512
  /-- How many bytes are written at a time. -/
  outputSize : Nat := 512
  /-- How many blocks are read at most. -/
  count? : Option Nat := none
  /-- How many blocks of the input are passed over. -/
  skipped : Nat := 0
  /-- How many blocks of the output are passed over. -/
  sought : Nat := 0
  /-- The conversions. -/
  conversions : List Chars := []
  /-- The flags of the input. -/
  flags : List Chars := []
  /-- How much is told at the end. -/
  status : Chars := []

namespace BlockCopy

/-- A number with a factor: several of them may be multiplied. -/
def number? (text : Chars) : Option Nat :=
  (text.splitOn 'x').foldl (fun product part =>
    let digits := part.takeWhile isDigit
    let factor := match part.drop digits.length with
      | ['c'] => some 1
      | ['w'] => some 2
      | suffix => factor? suffix
    product.bind fun p => (Numeral.digits? digits).bind fun n => factor.map fun f => p * n * f)
    (some 1)

/-- The copy with an operand taken in; what is wrong with it, otherwise. -/
def withOperand (c : BlockCopy) (operand : Bytes) : Except (List Bytes) BlockCopy :=
  let text := Latin.ofBytes operand
  let name := String.ofList (text.takeWhile (· ≠ '='))
  let value := text.drop (name.length + 1)
  let path := Latin.toBytes value
  let numbered (set : Nat → BlockCopy) : Except (List Bytes) BlockCopy :=
    match number? value with
    | some n => .ok (set n)
    | none => .error [Bytes.ofString "invalid number: ", cited path]
  let positive (set : Nat → BlockCopy) : Except (List Bytes) BlockCopy :=
    match number? value with
    | some 0 | none => .error [Bytes.ofString "invalid number: ", cited path]
    | some n => .ok (set n)
  if !text.contains '=' then .error [Bytes.ofString "unrecognized operand ", cited operand]
  else match name with
    | "if" => .ok { c with input? := some path }
    | "of" => .ok { c with output? := some path }
    | "bs" => positive fun n => { c with inputSize := n, outputSize := n }
    | "ibs" => positive fun n => { c with inputSize := n }
    | "obs" => positive fun n => { c with outputSize := n }
    | "count" => numbered fun n => { c with count? := some n }
    | "skip" | "iseek" => numbered fun n => { c with skipped := n }
    | "seek" | "oseek" => numbered fun n => { c with sought := n }
    | "conv" => .ok { c with conversions := value.splitOn ',' }
    | "iflag" => .ok { c with flags := value.splitOn ',' }
    | "oflag" | "cbs" => .ok c
    | "status" => .ok { c with status := value }
    | _ => .error [Bytes.ofString "unrecognized operand ", cited operand]

/-- Is a conversion wanted? -/
def converts (c : BlockCopy) (name : String) : Bool := c.conversions.contains name.toList

/-- Bytes with each two of them exchanged. -/
def swapped : Bytes → Bytes
  | a :: b :: rest => b :: a :: swapped rest
  | s => s

/-- A block after the conversions. -/
def converted (c : BlockCopy) (block : Bytes) : Bytes :=
  let filled := if c.converts "sync" then block ++ List.replicate (c.inputSize - block.length) 0
    else block
  let lower (b : UInt8) : UInt8 := if 65 ≤ b && b ≤ 90 then b + 32 else b
  let upper (b : UInt8) : UInt8 := if 97 ≤ b && b ≤ 122 then b - 32 else b
  let cased := if c.converts "lcase" then filled.map lower
    else if c.converts "ucase" then filled.map upper else filled
  if c.converts "swab" then swapped cased else cased

/-- Read a block: what is there, or as much as it takes to fill it. The fuel bounds the reads. -/
def readBlock (isWhole : Bool) (fd : Nat) : Nat → Nat → Task (Except Errno Bytes)
  | 0, _ | _ + 1, 0 => return .ok []
  | fuel + 1, size => do
    match ← Task.read fd size with
    | .error e => return .error e
    | .ok [] => return .ok []
    | .ok bytes =>
      if !isWhole then return .ok bytes
      else return (← readBlock isWhole fd fuel (size - bytes.length)).map (bytes ++ ·)

/-- Copy blocks, within so many rounds: the numbers of whole and of partial blocks read, and the
bytes, the last block first. -/
def blocks (c : BlockCopy) (fd : Nat) : Nat → Option Nat → Nat → Nat → List Bytes →
    Task (Except Errno Unit × Nat × Nat × List Bytes)
  | 0, _, whole, part, seen => return (.ok (), whole, part, seen)
  | fuel + 1, left, whole, part, seen => do
    if left = some 0 then return (.ok (), whole, part, seen)
    else
      match ← readBlock (c.flags.contains "fullblock".toList) fd Task.rounds c.inputSize with
      | .error e => return (.error e, whole, part, seen)
      | .ok [] => return (.ok (), whole, part, seen)
      | .ok block =>
        let isWhole := block.length = c.inputSize
        blocks c fd fuel (left.map (· - 1)) (if isWhole then whole + 1 else whole)
          (if isWhole then part else part + 1) (c.converted block :: seen)

/-- Pass over bytes of a file, within so many rounds; how many there are not. -/
def pass (fd : Nat) : Nat → Nat → Task Nat
  | 0, n | _ + 1, n@0 => return n
  | fuel + 1, n => do
    match ← Task.read fd (min n Task.chunk) with
    | .ok [] | .error _ => return n
    | .ok bytes => pass fd fuel (n - bytes.length)

end BlockCopy

/-- Copy blocks. -/
def dd : Utility := fun i => do
  let fault (parts : List Bytes) : Task Nat := do
    complain i.name parts
    return 1
  match i.args.foldlM BlockCopy.withOperand {} with
  | .error parts =>
    let code ← fault parts
    if parts.head? = some (Bytes.ofString "unrecognized operand ") then hint i.name
    return code
  | .ok c =>
    let opened ← match c.input? with
      | some path => Task.open path { isReadable := true }
      | none => pure (.ok 0)
    match opened with
    | .error e => failed i.name "failed to open" (c.input?.getD []) e
    | .ok source =>
      let missing ← BlockCopy.pass source Task.rounds (c.skipped * c.inputSize)
      if missing ≠ 0 && c.status ≠ "none".toList then
        complain i.name [quoted (c.input?.getD (Bytes.ofString "standard input")),
          Bytes.ofString ": cannot skip to specified offset"]
      let mode : OpenMode :=
        { isReadable := true, isWritable := true, creates := true
          truncates := !c.converts "notrunc" && c.sought = 0 }
      let target ← match c.output? with
        | some path => Task.open path mode
        | none => pure (.ok 1)
      match target with
      | .error e => failed i.name "failed to open" (c.output?.getD []) e
      | .ok sink =>
        if c.output?.isSome then
          let gap ← BlockCopy.pass sink Task.rounds (c.sought * c.outputSize)
          let _ ← Task.write sink (List.replicate gap 0)
        let (outcome, whole, part, seen) ← c.blocks source Task.rounds c.count? 0 0 []
        let bytes := seen.reverse.flatten
        let written ← Task.write sink bytes
        if c.status ≠ "none".toList then
          let blocksOut := bytes.length / c.outputSize
          let rest := if bytes.length % c.outputSize = 0 then 0 else 1
          Task.warn s!"{whole}+{part} records in\n{blocksOut}+{rest} records out\n"
          if c.status ≠ "noxfer".toList then
            Task.warn s!"{bytes.length} bytes copied, 0 s, Infinity B/s\n"
        match outcome, written with
        | .ok (), .ok () => return 0
        | .error e, _ => failed i.name "error reading" (c.input?.getD (Bytes.ofString "standard input")) e
        | _, .error e => failed i.name "error writing" (c.output?.getD (Bytes.ofString "standard output")) e

/-! ## Sizes -/

/-- The size that a text tells for a file of the given size. -/
def changedSize? (text : Chars) (old : Nat) : Option Nat :=
  let (sign, body) := match text with
    | c :: rest => if "+-<>/%".toList.contains c then (some c, rest) else (none, text)
    | [] => (none, [])
  (BlockCopy.number? body).bind fun n =>
    match sign with
    | none => some n
    | some '+' => some (old + n)
    | some '-' => some (old - n)
    | some '<' => some (min old n)
    | some '>' => some (max old n)
    | some '/' => if n = 0 then none else some (old / n * n)
    | some _ => if n = 0 then none else some ((old + n - 1) / n * n)

/-- Give files sizes. -/
def truncate : Utility :=
  let table : OptionTable :=
    { flags := "co".toList, valued := "sr".toList
      long := [("no-create", 'c'), ("size", 's'), ("reference", 'r')] }
  withUsage table 1 fun i u => do
    match u.value? 's' with
    | none =>
      complain i.name [Bytes.ofString "you must specify either '--size' or '--reference'"]
      hint i.name
      return 1
    | some text =>
      if (changedSize? (Latin.ofBytes text) 0).isNone then
        complain i.name [Bytes.ofString "Invalid number: ", cited text]
        return 1
      if u.operands.isEmpty then
        complain i.name [Bytes.ofString "missing file operand"]
        hint i.name
        return 1
      overPaths u.operands fun path => do
        let mode : OpenMode := { isReadable := true, isWritable := true, creates := !u.has 'c' }
        match ← Task.open path mode with
        | .error e =>
          if u.has 'c' && e = .notFound then return 0
          else
            complain i.name [Bytes.ofString "cannot open ", quoted path,
              Bytes.ofString " for writing: ", reason e]
            return 1
        | .ok fd =>
          let old := (← Task.readAll fd).toOption.getD []
          let _ ← Task.attempt (.close fd)
          let size := (changedSize? (Latin.ofBytes text) old.length).getD 0
          let new := old.take size ++ List.replicate (size - old.length) 0
          match ← Task.open path { isWritable := true, truncates := true } with
          | .error e => failed i.name "cannot open" path e
          | .ok fd =>
            let _ ← Task.write fd new
            let _ ← Task.attempt (.close fd)
            return 0

/-! ## Several files -/

/-- The name behind the common part of the file of a number: so many letters. -/
def suffix (isNumeric : Bool) (length n : Nat) : Chars :=
  let base := if isNumeric then 10 else 26
  let first := if isNumeric then '0' else 'a'
  (List.range length).map fun i =>
    Char.ofNat (first.toNat + n / base ^ (length - 1 - i) % base)

/-- A text in pieces of so many bytes or lines; the fuel bounds them. -/
def pieces (isBytes : Bool) (size : Nat) : Nat → List Bytes → Bytes → List Bytes
  | 0, _, _ => []
  | fuel + 1, ls, s =>
    if isBytes then
      if s.isEmpty then [] else s.take size :: pieces isBytes size fuel [] (s.drop size)
    else if ls.isEmpty then []
    else (ls.take size).flatten :: pieces isBytes size fuel (ls.drop size) []

/-- Spread a file over several. -/
def split : Utility := fun i => do
  let args := i.args.map fun a =>
    match Latin.ofBytes a with
    | '-' :: c :: cs =>
      if isDigit c then Bytes.ofString "-l" ++ Latin.toBytes (c :: cs) else a
    | _ => a
  let table : OptionTable :=
    { flags := ['d'], valued := "lba".toList
      long := [("lines", 'l'), ("bytes", 'b'), ("suffix-length", 'a'), ("numeric-suffixes", 'd')] }
  let run := withUsage table 1 fun i u => do
    let number (c : Char) (d : Nat) : Option Nat :=
      match u.value? c with
      | some text => (BlockCopy.number? (Latin.ofBytes text)).filter (0 < ·)
      | none => some d
    let front := u.operands.getD 1 (Bytes.ofString "x")
    match number 'l' 1000, number 'b' 0, number 'a' 2, ← readInput (u.operands.headD dash) with
    | some perFile, some size, some length, .ok bytes =>
      let isBytes := u.has 'b'
      let parts :=
        pieces isBytes (if isBytes then size else perFile) (bytes.length + 1) (rawLines bytes) bytes
      let shown := if bytes.isEmpty then [] else parts
      for (part, n) in shown.zipIdx do
        let path := front ++ Latin.toBytes (suffix (u.has 'd') length n)
        match ← Task.open path { isWritable := true, creates := true, truncates := true } with
        | .error e =>
          complainOf i.name path e
          return 1
        | .ok fd =>
          let _ ← Task.write fd part
          let _ ← Task.attempt (.close fd)
      return 0
    | _, _, _, .error e =>
      complain i.name [Bytes.ofString "cannot open ", quoted (u.operands.headD dash),
        Bytes.ofString " for reading: ", reason e]
      return 1
    | perFile, _, _, _ =>
      let (unit, c) := if perFile.isNone then ("lines", 'l') else ("bytes", 'b')
      complain i.name [Bytes.ofString s!"invalid number of {unit}: ", cited ((u.value? c).getD [])]
      return 1
  run { i with args }

/-! ## Names -/

/-- A free name of the form of a template, whose last letters are filled in; the fuel bounds how
many are tried. -/
def freeName (isDirectory : Bool) (front : Chars) (length : Nat) (back : Chars) :
    Nat → Nat → Task (Except Errno Bytes)
  | 0, _ => return .error .alreadyExists
  | fuel + 1, n => do
    let path := Latin.toBytes (front ++ suffix false length n ++ back)
    match ← Task.info path false with
    | .ok _ => freeName isDirectory front length back fuel (n + 1)
    | .error _ =>
      if isDirectory then
        return (← Task.attempt (.makeDirectory path 0o700)).map fun _ => path
      else match ← Task.open path { isWritable := true, creates := true } with
        | .error e => return .error e
        | .ok fd =>
          let _ ← Task.attempt (.close fd)
          let _ ← Task.attempt (.changeMode path 0o600)
          return .ok path

/-- Make a file or a directory with a new name. -/
def mktemp : Utility :=
  let table : OptionTable :=
    { flags := "dqut".toList, valued := ['p']
      long := [("directory", 'd'), ("quiet", 'q'), ("dry-run", 'u'), ("tmpdir", 'p')] }
  withUsage table 1 fun i u => do
    let template := Latin.ofBytes (u.operands.headD (Bytes.ofString "tmp.XXXXXXXXXX"))
    let isInside := u.operands.isEmpty || u.has 'p' || u.has 't'
    let dir := (u.value? 'p').getD (Bytes.ofString "/tmp")
    let whole := if isInside then Latin.ofBytes (inside dir (Latin.toBytes template)) else template
    let back := (whole.reverse.takeWhile (· ≠ 'X')).reverse
    let body := whole.take (whole.length - back.length)
    let length := (body.reverse.takeWhile (· = 'X')).length
    if length < 3 then
      complain i.name [Bytes.ofString "too few X's in template ", cited (Latin.toBytes template)]
      return 1
    match ← freeName (u.has 'd') (body.take (body.length - length)) length back Task.rounds 0 with
    | .ok path => emit i.name (path ++ [Bytes.newline])
    | .error e =>
      let what := if u.has 'd' then "failed to create directory via template"
        else "failed to create file via template"
      failed i.name what (Latin.toBytes whole) e

/-- Make a further name for a file. -/
def link : Utility :=
  withUsage {} 1 fun i u => do
    match u.operands with
    | [old, new] =>
      match ← Task.attempt (.makeName old new) with
      | .ok () => return 0
      | .error e =>
        complain i.name [Bytes.ofString "cannot create link ", quoted new, Bytes.ofString " to ",
          quoted old, Bytes.ofString ": ", reason e]
        return 1
    | _ :: _ :: extra :: _ => extraOperand i.name extra
    | [old] =>
      complain i.name [Bytes.ofString "missing operand after ", cited old]
      hint i.name
      return 1
    | [] => missingOperand i.name

/-- Remove a name. -/
def unlink : Utility :=
  withUsage {} 1 fun i u => do
    match u.operands with
    | [path] => doing i.name "cannot unlink" path (.unlink path)
    | _ :: extra :: _ => extraOperand i.name extra
    | [] => missingOperand i.name

end CommandExpr.Machine.Utility
