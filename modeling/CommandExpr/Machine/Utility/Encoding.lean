import CommandExpr.Machine.Utility.Stream

/-!
# Bytes as text

The utilities that write bytes as digits or letters, and read them back.

## Main definitions

* `DumpFormat` — how a dump shows the bytes
* `Utility.od` — a dump of the input
* `Alphabet` — the letters for groups of bits
* `Utility.base64`, `Utility.base32` — the input in such letters, and back
-/

namespace CommandExpr.Machine

/-! ## Dumps -/

/-- What a dump shows for the bytes of one field. -/
inductive DumpKind where
  | signed | unsigned | octal | hexadecimal
  /-- The character, or its escape. -/
  | character
  /-- The name of the character, of whose byte the high bit does not count. -/
  | named
  deriving DecidableEq

/-- How a dump shows the bytes. -/
structure DumpFormat where
  /-- What is shown for a field. -/
  kind : DumpKind
  /-- How many bytes a field has. -/
  size : Nat
  /-- Do the characters that print follow the fields? -/
  hasTrailer : Bool := false

namespace DumpFormat

/-- How many characters the longest number of so many bytes takes up in a base. -/
def digitsFor (base size : Nat) : Nat := (Nat.toDigits base (256 ^ size - 1)).length

/-- How wide the text of a field is at most. -/
def width (f : DumpFormat) : Nat :=
  match f.kind with
  | .signed => (Nat.toDigits 10 (256 ^ f.size / 2)).length + 1
  | .unsigned => digitsFor 10 f.size
  | .octal => digitsFor 8 f.size
  | .hexadecimal => digitsFor 16 f.size
  | .character | .named => 3

/-- The number whose bytes, the least one first, are given. -/
def number (bytes : Bytes) : Nat := bytes.foldr (fun b n => n * 256 + b.toNat) 0

/-- The names of the characters that do not print. -/
def names : List String :=
  ["nul", "soh", "stx", "etx", "eot", "enq", "ack", "bel", "bs", "ht", "nl", "vt", "ff", "cr", "so",
    "si", "dle", "dc1", "dc2", "dc3", "dc4", "nak", "syn", "etb", "can", "em", "sub", "esc", "fs",
    "gs", "rs", "us", "sp"]

/-- A byte as a character or its escape. -/
def character (b : UInt8) : Chars :=
  let c := Char.ofNat b.toNat
  let escapes := [(0, '0'), (7, 'a'), (8, 'b'), (12, 'f'), (10, 'n'), (13, 'r'), (9, 't'), (11, 'v')]
  match escapes.lookup b.toNat with
  | some letter => ['\\', letter]
  | none =>
    if Quoting.prints c then [c] else Utility.padStart '0' 3 (Nat.toDigits 8 b.toNat)

/-- The text of a field. -/
def field (f : DumpFormat) (bytes : Bytes) : Chars :=
  let n := number bytes
  let half := 256 ^ f.size / 2
  match f.kind with
  | .signed =>
    if n < half then Nat.toDigits 10 n else '-' :: Nat.toDigits 10 (256 ^ f.size - n)
  | .unsigned => Nat.toDigits 10 n
  | .octal => Utility.padStart '0' f.width (Nat.toDigits 8 n)
  | .hexadecimal => Utility.padStart '0' f.width (Nat.toDigits 16 n)
  | .character => character (bytes.headD 0)
  | .named =>
    let n := (bytes.headD 0).toNat % 128
    match names[n]? with
    | some name => name.toList
    | none => if n = 127 then "del".toList else [Char.ofNat n]

/-- How wide a whole line is with a blank in front of each field. -/
def lineWidth (f : DumpFormat) (perLine : Nat) : Nat := (f.width + 1) * (perLine / f.size)

/-- The fields of a line that is `total` characters wide if it is full. What is missing from a full
line is left out, but for a trailer. -/
def line (f : DumpFormat) (perLine total : Nat) (bytes : Bytes) : Chars :=
  let count := perLine / f.size
  let pad := total - f.width * count
  let given := (bytes.length + f.size - 1) / f.size
  let filled := bytes ++ List.replicate (given * f.size - bytes.length) 0
  let shown := (List.range given).flatMap fun i =>
    let before := pad * (count - i) / count
    let after := pad * (count - i - 1) / count
    Utility.padStart ' ' (before - after + f.width)
      (f.field ((filled.drop (i * f.size)).take f.size))
  let blank := count - given
  let gap := blank * f.width + pad * blank / count
  let trailer := bytes.map fun b =>
    let c := Char.ofNat b.toNat
    if Quoting.prints c then c else '.'
  if f.hasTrailer then shown ++ List.replicate gap ' ' ++ "  >".toList ++ trailer ++ ['<'] else shown

/-- The sizes that letters stand for. -/
def sizes : List (Char × Nat) := [('C', 1), ('S', 2), ('I', 4), ('L', 8)]

/-- Read formats from a text; the first letter that makes no sense, otherwise. -/
def ofChars (text : Chars) : Nat → Chars → Except Chars (List DumpFormat)
  | 0, _ | _ + 1, [] => .ok []
  | fuel + 1, letter :: rest =>
    let kinds := [('d', DumpKind.signed), ('u', .unsigned), ('o', .octal), ('x', .hexadecimal)]
    let trailed (rest : Chars) : Bool × Chars :=
      if rest.head? = some 'z' then (true, rest.drop 1) else (false, rest)
    match kinds.lookup letter with
    | some kind =>
      let digits := rest.takeWhile Utility.isDigit
      let (size, rest) := match Numeral.digits? digits with
        | some n => (some n, rest.drop digits.length)
        | none => match rest.head?.bind fun c => sizes.lookup c with
          | some n => (some n, rest.drop 1)
          | none => (some 4, rest)
      match size.filter [1, 2, 4, 8].contains with
      | none =>
        .error ("invalid type string ".toList ++ Latin.ofBytes (Quoting.cited (Latin.toBytes text)))
      | some size => do
        let (hasTrailer, rest) := trailed rest
        return ⟨kind, size, hasTrailer⟩ :: (← ofChars text fuel rest)
    | none =>
      let plain := [('a', DumpKind.named), ('c', .character)]
      match plain.lookup letter with
      | some kind => do
        let (hasTrailer, rest) := trailed rest
        return ⟨kind, 1, hasTrailer⟩ :: (← ofChars text fuel rest)
      | none =>
        .error ("invalid character ".toList ++ Latin.ofBytes (Quoting.cited (Latin.toBytes [letter]))
          ++ " in type string ".toList ++ Latin.ofBytes (Quoting.cited (Latin.toBytes text)))

/-- The formats that single options stand for. -/
def short : List (Char × DumpFormat) :=
  [('a', ⟨.named, 1, false⟩), ('b', ⟨.octal, 1, false⟩), ('c', ⟨.character, 1, false⟩),
    ('d', ⟨.unsigned, 2, false⟩), ('i', ⟨.signed, 4, false⟩), ('l', ⟨.signed, 8, false⟩),
    ('o', ⟨.octal, 2, false⟩), ('s', ⟨.signed, 2, false⟩), ('x', ⟨.hexadecimal, 2, false⟩),
    ('h', ⟨.hexadecimal, 2, false⟩)]

end DumpFormat

namespace Utility

/-- How offsets are shown in front of lines; none if they are not. -/
structure OffsetStyle where
  /-- The base. -/
  base : Nat
  /-- The least number of digits. -/
  width : Nat

/-- An offset as it is shown. -/
def OffsetStyle.text (s : OffsetStyle) (n : Nat) : Chars :=
  padStart '0' s.width (Nat.toDigits s.base n)

/-- The lines of a dump. A full line like the one before stands as an asterisk, and further ones not
at all. The fuel bounds the lines. -/
def dumpLines (formats : List DumpFormat) (style? : Option OffsetStyle) (perLine total : Nat)
    (isBrief : Bool) : Nat → Nat → Option Bytes → Bool → Bytes → List Chars
  | 0, _, _, _, _ => []
  | fuel + 1, offset, last?, wasSame, bytes =>
    let now := bytes.take perLine
    if now.isEmpty then (style?.map fun s => s.text offset).toList
    else
      let next := dumpLines formats style? perLine total isBrief fuel (offset + now.length)
      let rest := bytes.drop perLine
      if isBrief && last? = some now && now.length = perLine then
        (if wasSame then [] else [['*']]) ++ next (some now) true rest
      else
        let front := (style?.map fun s => s.text offset).getD []
        let fields := formats.map fun f => f.line perLine total now
        let shown := fields.zipIdx.map fun (text, i) =>
          (if i = 0 then front else List.replicate front.length ' ') ++ text
        shown ++ next (some now) false rest

/-- At most so many bytes of a descriptor, within so many rounds. -/
def readUpTo (fd : Nat) : Nat → Nat → Task Bytes
  | 0, _ | _ + 1, 0 => return []
  | fuel + 1, wanted => do
    match ← Task.read fd (min wanted Task.chunk) with
    | .ok [] | .error _ => return []
    | .ok bytes => return bytes ++ (← readUpTo fd fuel (wanted - bytes.length))

/-- The options that tell formats, in order, as formats. -/
def dumpFormats (u : Usage) : Except Chars (List DumpFormat) := do
  let parts ← u.options.mapM fun (c, value) =>
    if c = 't' then DumpFormat.ofChars (Latin.ofBytes value) (value.length + 1) (Latin.ofBytes value)
    else .ok (DumpFormat.short.lookup c).toList
  return if parts.flatten.isEmpty then [⟨.octal, 2, false⟩] else parts.flatten

/-- Write the bytes of the input as numbers or characters. -/
def od : Utility := fun i => do
  let table : OptionTable :=
    { flags := 'v' :: DumpFormat.short.map (·.1), valued := "AtNjwS".toList
      long := [("address-radix", 'A'), ("format", 't'), ("read-bytes", 'N'), ("skip-bytes", 'j'),
        ("width", 'w'), ("output-duplicates", 'v')] }
  let args := i.args.map fun a => if a = Bytes.ofString "-w" then Bytes.ofString "-w32" else a
  let run := withUsage table 1 fun i u => do
    let count? (c : Char) : Option (Option Nat) :=
      match u.value? c with
      | none => some none
      | some text => ((Portion.ofBytes? true text).filter (·.sign.isNone)).map (some ·.count)
    let styles := [('d', some (OffsetStyle.mk 10 7)), ('o', some ⟨8, 7⟩), ('x', some ⟨16, 6⟩), ('n', none)]
    let radix := ((u.value? 'A').bind fun text => (Latin.ofBytes text).head?).getD 'o'
    match dumpFormats u, styles.lookup radix, count? 'N', count? 'j', count? 'w' with
    | .error message, _, _, _, _ =>
      complain i.name [Latin.toBytes message]
      return 1
    | .ok formats, some style?, some limit, some skipped, some wished =>
      let (all, code) ← match limit, u.operands with
        | some n, [] => do
          let wanted := n + skipped.getD 0
          pure (← readUpTo 0 wanted wanted, 0)
        | _, files => readInputs i.name files
      let start := skipped.getD 0
      if all.isEmpty && code ≠ 0 then return code
      if all.length < start then
        complain i.name [Bytes.ofString "cannot skip past end of combined input"]
        return 1
      let bytes := all.drop start
      let bytes := match limit with
        | some n => bytes.take n
        | none => bytes
      let unit := formats.foldl (fun n f => Nat.lcm n f.size) 1
      let perLine := match wished with
        | some n => if n ≠ 0 && n % unit = 0 then n else unit
        | none => unit * (16 / unit)
      let total := formats.foldl (fun n f => max n (f.lineWidth perLine)) 0
      let shown :=
        dumpLines formats style? perLine total (!u.has 'v') (bytes.length + 2) start none false bytes
      let written ← emit i.name (unlines (shown.map Latin.toBytes))
      return max code written
    | _, _, _, _, _ =>
      complain i.name [Bytes.ofString "invalid argument"]
      return 1
  run { i with args }

end Utility

/-! ## Letters for bits -/

/-- Letters for groups of bits. -/
structure Alphabet where
  /-- The letters, in the order of what they stand for. -/
  letters : List Char
  /-- How many bits a letter stands for. -/
  bits : Nat
  /-- How many letters stand for whole bytes together. -/
  group : Nat

namespace Alphabet

/-- Sixty-four letters. -/
def sixtyFour : Alphabet :=
  ⟨"ABCDEFGHIJKLMNOPQRSTUVWXYZabcdefghijklmnopqrstuvwxyz0123456789+/".toList, 6, 4⟩

/-- Thirty-two letters. -/
def thirtyTwo : Alphabet := ⟨"ABCDEFGHIJKLMNOPQRSTUVWXYZ234567".toList, 5, 8⟩

/-- How many bytes a group of letters stands for. -/
def bytesPerGroup (a : Alphabet) : Nat := a.bits * a.group / 8

/-- The letters of the first bytes, a group's worth at most; what is missing from a group is filled
with equals signs. -/
def groupOf (a : Alphabet) (bytes : Bytes) : Chars :=
  let n := bytes.foldl (fun n b => n * 256 + b.toNat) 0 * 256 ^ (a.bytesPerGroup - bytes.length)
  let used := (bytes.length * 8 + a.bits - 1) / a.bits
  (List.range a.group).map fun i =>
    if i < used then a.letters.getD (n / 2 ^ (a.bits * (a.group - 1 - i)) % 2 ^ a.bits) '=' else '='

/-- Bytes as letters, the fuel bounding the groups. -/
def encodeFrom (a : Alphabet) : Nat → Bytes → Chars
  | 0, _ | _ + 1, [] => []
  | fuel + 1, bytes =>
    a.groupOf (bytes.take a.bytesPerGroup) ++ encodeFrom a fuel (bytes.drop a.bytesPerGroup)

/-- Bytes as letters. -/
def encode (a : Alphabet) (bytes : Bytes) : Chars := encodeFrom a bytes.length bytes

/-- The bytes of a group of letters, if it is one. -/
def bytesOfGroup? (a : Alphabet) (group : Chars) : Option Bytes :=
  let used := group.takeWhile (· ≠ '=')
  let count := used.length * a.bits / 8
  let isWhole := group.length = a.group && (group.drop used.length).all (· = '=')
    && used.length = (count * 8 + a.bits - 1) / a.bits && count ≠ 0
  if !isWhole then none
  else do
    let values ← used.mapM fun c => a.letters.idxOf? c
    let n := values.foldl (fun n v => n * 2 ^ a.bits + v) 0 * 2 ^ (a.bits * (a.group - used.length))
    return (List.range count).map fun i =>
      UInt8.ofNat (n / 256 ^ (a.bytesPerGroup - 1 - i))

/-- The bytes of letters, and whether they are all in order; the fuel bounds the groups. -/
def decodeFrom (a : Alphabet) : Nat → Chars → Bytes × Bool
  | 0, _ | _ + 1, [] => ([], true)
  | fuel + 1, s =>
    let group := s.take a.group
    match a.bytesOfGroup? group with
    | none =>
      let filled := group ++ List.replicate (a.group - group.length) '='
      ((if group.contains '=' then none else a.bytesOfGroup? filled).getD [], false)
    | some bytes =>
      let (rest, isFine) := decodeFrom a fuel (s.drop a.group)
      (bytes ++ rest, isFine)

/-- The bytes of letters, line ends left out, and whether they are all in order. -/
def decode (a : Alphabet) (s : Chars) : Bytes × Bool :=
  let letters := s.filter (· ≠ '\n')
  a.decodeFrom letters.length letters

end Alphabet

namespace Utility

/-- Break a text into lines of a width; the fuel bounds them. -/
def wrapped (width : Nat) : Nat → Chars → List Chars
  | 0, _ | _ + 1, [] => []
  | fuel + 1, s => s.take width :: wrapped width fuel (s.drop width)

/-- Write the input in letters, or what letters in the input stand for. -/
def lettered (a : Alphabet) : Utility :=
  let table : OptionTable :=
    { flags := "di".toList, valued := ['w']
      long := [("decode", 'd'), ("ignore-garbage", 'i'), ("wrap", 'w')] }
  withUsage table 1 fun i u => do
    match u.operands with
    | _ :: extra :: _ => extraOperand i.name extra
    | files =>
      let width := match u.value? 'w' with
        | some text => Numeral.digits? (Latin.ofBytes text)
        | none => some 76
      match width, ← readInput (files.headD dash) with
      | none, _ =>
        complain i.name [Bytes.ofString "invalid wrap size: ", cited ((u.value? 'w').getD [])]
        return 1
      | some _, .error e =>
        complainOf i.name (files.headD dash) e
        return 1
      | some width, .ok bytes =>
        if u.has 'd' then
          let text := Latin.ofBytes bytes
          let kept := if u.has 'i' then text.filter fun c => c = '=' || a.letters.contains c else text
          let (decoded, isFine) := a.decode kept
          let code ← emit i.name decoded
          if !isFine then
            complain i.name [Bytes.ofString "invalid input"]
            return 1
          return code
        else
          let text := a.encode bytes
          if width = 0 then emit i.name (Latin.toBytes text)
          else emit i.name (unlines ((wrapped width text.length text).map Latin.toBytes))

/-- The input in sixty-four letters, and back. -/
def base64 : Utility := lettered .sixtyFour

/-- The input in thirty-two letters, and back. -/
def base32 : Utility := lettered .thirtyTwo

end Utility

end CommandExpr.Machine
