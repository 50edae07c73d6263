import CommandExpr.Machine.Utility.Stream

/-!
# Checksums and digests

Short numbers that stand for a text. A digest folds a compression over the blocks of the text, which
is filled up with a mark, zeros and its length.

## Main definitions

* `Checksum.cyclic`, `Checksum.rotating` — two checksums
* `Digest.Scheme` — a digest: its start, its order of bytes, its compression
* `Digest.md5`, `Digest.sha1`, `Digest.sha224`, `Digest.sha256` — the schemes
* `Utility.cksum`, `Utility.sum`, `Utility.digestOf` — the utilities
-/

namespace CommandExpr.Machine

namespace Checksum

/-- The remainder after eight more bits, the most significant one first. -/
def shifted (crc : UInt32) (b : UInt8) : UInt32 :=
  (List.range 8).foldl (fun crc _ =>
    let next := crc <<< 1
    if crc &&& 0x80000000 ≠ 0 then next ^^^ 0x04c11db7 else next) (crc ^^^ (b.toUInt32 <<< 24))

/-- The bytes of a number, the least one first, without zeros at its end; the fuel bounds them. -/
def lengthBytes : Nat → Nat → Bytes
  | 0, _ => []
  | fuel + 1, n => if n = 0 then [] else UInt8.ofNat n :: lengthBytes fuel (n / 256)

/-- The cyclic checksum of a text and its length. -/
def cyclic (s : Bytes) : UInt32 := ~~~((s ++ lengthBytes 8 s.length).foldl shifted 0)

/-- The checksum that is turned round by a bit before each byte is added. -/
def rotating (s : Bytes) : Nat :=
  s.foldl (fun sum b => (sum / 2 + sum % 2 * 32768 + b.toNat) % 65536) 0

/-- The checksum that adds all bytes and folds the sum. -/
def folded (s : Bytes) : Nat :=
  let sum := (s.foldl (fun n b => n + b.toNat) 0) % 2 ^ 32
  let once := sum % 65536 + sum / 65536
  once % 65536 + once / 65536

end Checksum

namespace Digest

/-- A digest over blocks of 64 bytes. -/
structure Scheme where
  /-- The words before the first block. -/
  start : Array UInt32
  /-- Does the most significant byte of a word come first? -/
  isBigEndian : Bool
  /-- The words after a block of sixteen words. -/
  compress : Array UInt32 → Array UInt32 → Array UInt32
  /-- How many words make up the digest. -/
  size : Nat

/-- The word of four bytes. -/
def word (isBigEndian : Bool) (bytes : Bytes) : UInt32 :=
  let inOrder := if isBigEndian then bytes else bytes.reverse
  inOrder.foldl (fun n b => n <<< 8 ||| b.toUInt32) 0

/-- The bytes of a number, so many. -/
def bytesOf (isBigEndian : Bool) (count n : Nat) : Bytes :=
  let low := (List.range count).map fun i => UInt8.ofNat (n / 256 ^ i)
  if isBigEndian then low.reverse else low

/-- What follows a text of the given length: a mark, zeros, and the length in bits. -/
def padding (isBigEndian : Bool) (length : Nat) : Bytes :=
  0x80 :: List.replicate ((119 - length % 64) % 64) 0 ++ bytesOf isBigEndian 8 (length * 8)

/-- The words of a block. -/
def words (isBigEndian : Bool) (block : Bytes) : Array UInt32 :=
  ((List.range 16).map fun i => word isBigEndian ((block.drop (4 * i)).take 4)).toArray

/-- The words after all blocks; the fuel bounds them. -/
def absorb (s : Scheme) : Nat → Array UInt32 → Bytes → Array UInt32
  | 0, state, _ | _ + 1, state, [] => state
  | fuel + 1, state, bytes =>
    absorb s fuel (s.compress state (words s.isBigEndian (bytes.take 64))) (bytes.drop 64)

/-- The digest of a text. -/
def apply (s : Scheme) (text : Bytes) : Bytes :=
  let whole := text ++ padding s.isBigEndian text.length
  let state := absorb s (whole.length / 64) s.start whole
  (state.toList.take s.size).flatMap fun w => bytesOf s.isBigEndian 4 w.toNat

/-- A word turned round to the left. -/
def rotateLeft (w : UInt32) (n : UInt32) : UInt32 := (w <<< n) ||| (w >>> (32 - n))

/-- A word turned round to the right. -/
def rotateRight (w : UInt32) (n : UInt32) : UInt32 := (w >>> n) ||| (w <<< (32 - n))

/-- Words added one by one. -/
def plus (a b : Array UInt32) : Array UInt32 := Array.zipWith (· + ·) a b

/-- The integer part of a root's fraction times two to the 32: of the square or the cube root. -/
def rootFraction (n power : Nat) : UInt32 :=
  let target := n * 2 ^ (32 * power)
  let root := (List.range 40).foldl (fun root i =>
    let bit := 2 ^ (39 - i)
    if (root + bit) ^ power ≤ target then root + bit else root) 0
  UInt32.ofNat root

/-- The first prime numbers, so many. -/
def primes (count : Nat) : List Nat :=
  ((List.range 400).filter fun n =>
    1 < n && (List.range 20).all fun d => d < 2 || d = n || n % d ≠ 0).take count

/-! ## Five words -/

/-- A compression over five words. -/
def compressFive (state block : Array UInt32) : Array UInt32 :=
  let schedule := (List.range 64).foldl (fun (w : Array UInt32) i =>
    let t := i + 16
    let at_ (k : Nat) : UInt32 := w.getD (t - k) 0
    w.push (rotateLeft (at_ 3 ^^^ at_ 8 ^^^ at_ 14 ^^^ at_ 16) 1)) block
  let final := (List.range 80).foldl (fun (s : Array UInt32) t =>
    let (a, b, c, d, e) := (s.getD 0 0, s.getD 1 0, s.getD 2 0, s.getD 3 0, s.getD 4 0)
    let (f, k) : UInt32 × UInt32 :=
      if t < 20 then ((b &&& c) ||| (~~~b &&& d), 0x5a827999)
      else if t < 40 then (b ^^^ c ^^^ d, 0x6ed9eba1)
      else if t < 60 then ((b &&& c) ||| (b &&& d) ||| (c &&& d), 0x8f1bbcdc)
      else (b ^^^ c ^^^ d, 0xca62c1d6)
    #[rotateLeft a 5 + f + e + k + schedule.getD t 0, a, rotateLeft b 30, c, d]) state
  plus state final

/-- The digest of five words. -/
def sha1 : Scheme :=
  ⟨#[0x67452301, 0xefcdab89, 0x98badcfe, 0x10325476, 0xc3d2e1f0], true, compressFive, 5⟩

/-! ## Four words -/

/-- How far each step of a compression over four words turns. -/
def turns : Array UInt32 :=
  #[7, 12, 17, 22, 5, 9, 14, 20, 4, 11, 16, 23, 6, 10, 15, 21]

/-- The integer part of the sine of a number, without its sign, times two to the 32. -/
def sines : Array UInt32 :=
  ((List.range 64).map fun i => (Float.abs (Float.sin (Float.ofNat (i + 1))) * 4294967296).toUInt32)
    |>.toArray

/-- A compression over four words. -/
def compressFour (state block : Array UInt32) : Array UInt32 :=
  let final := (List.range 64).foldl (fun (s : Array UInt32) i =>
    let (a, b, c, d) := (s.getD 0 0, s.getD 1 0, s.getD 2 0, s.getD 3 0)
    let (f, g) : UInt32 × Nat :=
      if i < 16 then ((b &&& c) ||| (~~~b &&& d), i)
      else if i < 32 then ((d &&& b) ||| (~~~d &&& c), (5 * i + 1) % 16)
      else if i < 48 then (b ^^^ c ^^^ d, (3 * i + 5) % 16)
      else (c ^^^ (b ||| ~~~d), 7 * i % 16)
    let mixed := a + f + sines.getD i 0 + block.getD g 0
    #[d, b + rotateLeft mixed (turns.getD (i / 16 * 4 + i % 4) 0), b, c]) state
  plus state final

/-- The digest of four words. -/
def md5 : Scheme :=
  ⟨#[0x67452301, 0xefcdab89, 0x98badcfe, 0x10325476], false, compressFour, 4⟩

/-! ## Eight words -/

/-- The constants of the steps: fractions of the cube roots of primes. -/
def roots : Array UInt32 := ((primes 64).map fun p => rootFraction p 3).toArray

/-- A compression over eight words. -/
def compressEight (state block : Array UInt32) : Array UInt32 :=
  let schedule := (List.range 48).foldl (fun (w : Array UInt32) i =>
    let t := i + 16
    let x := w.getD (t - 15) 0
    let y := w.getD (t - 2) 0
    let low := rotateRight x 7 ^^^ rotateRight x 18 ^^^ (x >>> 3)
    let high := rotateRight y 17 ^^^ rotateRight y 19 ^^^ (y >>> 10)
    w.push (w.getD (t - 16) 0 + low + w.getD (t - 7) 0 + high)) block
  let final := (List.range 64).foldl (fun (s : Array UInt32) t =>
    let (a, b, c, d) := (s.getD 0 0, s.getD 1 0, s.getD 2 0, s.getD 3 0)
    let (e, f, g, h) := (s.getD 4 0, s.getD 5 0, s.getD 6 0, s.getD 7 0)
    let high := rotateRight e 6 ^^^ rotateRight e 11 ^^^ rotateRight e 25
    let choice := (e &&& f) ^^^ (~~~e &&& g)
    let first := h + high + choice + roots.getD t 0 + schedule.getD t 0
    let low := rotateRight a 2 ^^^ rotateRight a 13 ^^^ rotateRight a 22
    let majority := (a &&& b) ^^^ (a &&& c) ^^^ (b &&& c)
    #[first + (low + majority), a, b, c, d + first, e, f, g]) state
  plus state final

/-- The digest of eight words, which start with fractions of the square roots of primes. -/
def sha256 : Scheme :=
  ⟨((primes 8).map fun p => rootFraction p 2).toArray, true, compressEight, 8⟩

/-- The digest of seven of eight words. -/
def sha224 : Scheme :=
  ⟨#[0xc1059ed8, 0x367cd507, 0x3070dd17, 0xf70e5939, 0xffc00b31, 0x68581511, 0x64f98fa7, 0xbefa4fa4],
    true, compressEight, 7⟩

end Digest

namespace Utility

/-- Bytes as hexadecimal digits. -/
def hexadecimal (s : Bytes) : Chars :=
  s.flatMap fun b => padStart '0' 2 (Nat.toDigits 16 b.toNat)

/-- A line for each input file, from its bytes and its name; the name is none for the standard input
that nobody named. -/
def overContents (i : Invocation) (files : List Bytes) (line : Option Bytes → Bytes → Chars) :
    Task Nat := do
  let mut code := 0
  for file in (if files.isEmpty then [dash] else files) do
    match ← readInput file with
    | .ok bytes =>
      let name := if files.isEmpty then none else some file
      code := max code (← emit i.name (Latin.toBytes (line name bytes) ++ [Bytes.newline]))
    | .error e =>
      complainOf i.name file e
      code := 1
  return code

/-- A name behind a blank, if there is one. -/
def blankAnd (name : Option Bytes) : Chars := (name.map fun n => ' ' :: Latin.ofBytes n).getD []

/-- Cyclic checksums. -/
def cksum : Utility :=
  withUsage {} 1 fun i u =>
    overContents i u.operands fun name bytes =>
      Nat.toDigits 10 (Checksum.cyclic bytes).toNat ++ ' ' :: Nat.toDigits 10 bytes.length
        ++ blankAnd name

/-- Checksums that turn round, or folded sums. -/
def sum : Utility :=
  withUsage { flags := "rs".toList, long := [("sysv", 's')] } 1 fun i u =>
    overContents i u.operands fun name bytes =>
      let blocks (size : Nat) : Chars := Nat.toDigits 10 ((bytes.length + size - 1) / size)
      if u.last? ['r', 's'] = some 's' then
        Nat.toDigits 10 (Checksum.folded bytes) ++ ' ' :: blocks 512 ++ blankAnd name
      else
        padStart '0' 5 (Nat.toDigits 10 (Checksum.rotating bytes)) ++ ' ' :: padStart ' ' 5 (blocks 1024)
          ++ blankAnd name

/-- Digests of a scheme. -/
def digestOf (s : Digest.Scheme) : Utility :=
  let table : OptionTable :=
    { flags := "bt".toList, long := [("binary", 'b'), ("text", 't')] }
  withUsage table 1 fun i u =>
    overContents i u.operands fun name bytes =>
      let mark := if u.last? ['b', 't'] = some 'b' then " *" else "  "
      hexadecimal (Digest.apply s bytes) ++ mark.toList ++ Latin.ofBytes (name.getD dash)

end Utility

end CommandExpr.Machine
