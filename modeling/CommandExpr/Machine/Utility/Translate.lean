import CommandExpr.Machine.Utility.Escape
import CommandExpr.Machine.Utility.Pattern
import CommandExpr.Machine.Utility.Stream

/-!
# Translating characters

The utility that changes, drops and squeezes single bytes of its input.

## Main definitions

* `Translation` — what is done to a byte
* `Utility.tr` — the utility
-/

namespace CommandExpr.Machine

/-- What is done to the bytes of a stream. -/
structure Translation where
  /-- Which bytes are dropped. -/
  drops : UInt8 → Bool
  /-- What becomes of the others. -/
  change : UInt8 → UInt8
  /-- Which bytes are written only once in a row. -/
  squeezes : UInt8 → Bool

namespace Translation

/-- Translate bytes, given the last one written. -/
def apply (t : Translation) (last : Option UInt8) (s : Bytes) : Option UInt8 × Bytes :=
  let step : Option UInt8 × Bytes → UInt8 → Option UInt8 × Bytes := fun (last, out) b =>
    if t.drops b then (last, out)
    else
      let c := t.change b
      if t.squeezes c && last = some c then (last, out) else (some c, c :: out)
  let (last, out) := s.foldl step (last, [])
  (last, out.reverse)

/-! ## Sets -/

/-- A part of a set's text. -/
inductive Piece where
  | bytes (b : Bytes)
  /-- A byte so many times, or as often as there is room. -/
  | copies (b : UInt8) (n : Nat)
  | named (k : CharClass)
  /-- A byte together with all that is equal to it. -/
  | equals (b : UInt8)

/-- All bytes, in order. -/
def allBytes : Bytes := (List.range 256).map UInt8.ofNat

/-- The bytes of a class. -/
def bytesOf (k : CharClass) : Bytes := allBytes.filter fun b => k.holds (Char.ofNat b.toNat)

/-- One character at the front of a set's text, its escape carried out. -/
def unit (s : Chars) : Option (UInt8 × Chars) :=
  match s with
  | [] => none
  | '\\' :: rest =>
    match Escape.meaning {} rest with
    | .bytes [b] rest => some (b, rest)
    | _ =>
      match rest with
      | c :: rest => some (Escape.byte c.toNat, rest)
      | [] => some (92, [])
  | c :: rest => some (Escape.byte c.toNat, rest)

/-- A bracketed part at the front of a set's text. -/
def bracketed (s : Chars) : Option (Except String Piece × Chars) :=
  match s with
  | '[' :: ':' :: rest =>
    (Pattern.bracketName ':' rest).map fun (name, rest) =>
      match CharClass.ofName? name with
      | some k => (.ok (.named k), rest)
      | none => (.error s!"invalid character class '{String.ofList name}'", rest)
  | '[' :: '=' :: rest =>
    (Pattern.bracketName '=' rest).bind fun (name, rest) =>
      match name with
      | [c] => some (.ok (.equals (Escape.byte c.toNat)), rest)
      | _ => none
  | '[' :: rest =>
    (unit rest).bind fun (b, rest) =>
      match rest with
      | '*' :: rest =>
        let digits := rest.takeWhile Utility.isDigit
        match rest.drop digits.length with
        | ']' :: rest =>
          let base := if digits.head? = some '0' then 8 else 10
          let (_, n, _) := Escape.digits base digits.length 0 digits
          some (.ok (.copies b n), rest)
        | _ => none
      | _ => none
  | _ => none

/-- The parts of a set's text; the fuel bounds the characters that are read. -/
def piecesFrom : Nat → Chars → Except String (List Piece)
  | 0, _ => .ok []
  | fuel + 1, s =>
    match bracketed s with
    | some (piece, rest) => do return (← piece) :: (← piecesFrom fuel rest)
    | none =>
      match unit s with
      | none => .ok []
      | some (a, rest) =>
        match rest with
        | '-' :: more =>
          match unit more with
          | some (b, rest) =>
            if b < a then
              let range := s!"'{shown a}-{shown b}'"
              .error s!"range-endpoints of {range} are in reverse collating sequence order"
            else do
              let range := (List.range (b.toNat - a.toNat + 1)).map fun k => a + UInt8.ofNat k
              return .bytes range :: (← piecesFrom fuel rest)
          | none => do return .bytes [a] :: (← piecesFrom fuel rest)
        | _ => do return .bytes [a] :: (← piecesFrom fuel rest)
where
  /-- A byte in a message. -/
  shown (b : UInt8) : String :=
    let c := Char.ofNat b.toNat
    if CharClass.print.holds c then String.singleton c
    else
      let digits := Nat.toDigits 8 b.toNat
      String.ofList ('\\' :: List.replicate (3 - digits.length) '0' ++ digits)

/-- The parts of a set's text. -/
def pieces (text : Bytes) : Except String (List Piece) :=
  piecesFrom (text.length + 1) (Latin.ofBytes text)

/-- The bytes of a part; where it says to fill up, as many as there is room. -/
def Piece.bytesWithin (room : Nat) : Piece → Bytes
  | .bytes b => b
  | .copies b n => List.replicate (if n = 0 then room else n) b
  | .named k => bytesOf k
  | .equals b => [b]

/-- The bytes of parts, filled up to a length where a part says so. -/
def expand (ps : List Piece) (length : Nat) : Bytes :=
  let room := length - (ps.flatMap (Piece.bytesWithin 0)).length
  ps.flatMap (Piece.bytesWithin room)

/-- Does a part fill up what room there is? -/
def Piece.fills : Piece → Bool
  | .copies _ 0 => true
  | _ => false

/-- Is a part a class? -/
def Piece.isClass : Piece → Bool
  | .named _ => true
  | _ => false

/-- Is a part a class of letters of one case? -/
def Piece.isCase : Piece → Bool
  | .named k => k = .lower || k = .upper
  | _ => false

/-- Where the classes of letters of one case start among the bytes of parts. -/
def caseStarts : Nat → List Piece → List Nat
  | _, [] => []
  | start, p :: ps =>
    let later := caseStarts (start + (p.bytesWithin 0).length) ps
    if p.isCase then start :: later else later

/-- What is wrong with sets between which bytes are to be translated. -/
def faultBetween (isInverted truncates : Bool) (first second : List Piece) (source : Bytes) :
    Option String :=
  let target := expand second source.length
  let isShort := target.length < source.length && !truncates
  let goal := target ++ List.replicate (source.length - target.length) (target.getLastD 0)
  let misplaced := (caseStarts 0 second).filter fun n => !(caseStarts 0 first).contains n
  if second.any fun p => p matches .equals _ then
    some "[=c=] expressions may not appear in string2 when translating"
  else if second.any fun p => p.isClass && !p.isCase then
    some ("when translating, the only character classes that may appear in\n"
      ++ "string2 are 'upper' and 'lower'")
  else if misplaced.any (· ≤ (expand first 0).length) then
    some "misaligned [:upper:] and/or [:lower:] construct"
  else if isShort && target.isEmpty then
    some "when not truncating set1, string2 must be non-empty"
  else if isShort && (second.getLast?).any Piece.isClass then
    some ("when translating with string1 longer than string2,\n"
      ++ "the latter string must not end with a character class")
  else if isInverted && first.any Piece.isClass
      && (goal.eraseDups.length ≠ 1 || (truncates && target.length ≠ source.length)) then
    some ("when translating with complemented character classes,\n"
      ++ "string2 must map all characters in the domain to one")
  else none

/-- What is wrong with sets. -/
def fault? (isInverted translates truncates : Bool) (first : List Piece)
    (second : Option (List Piece)) : Option String :=
  let listed := expand first 0
  let source := if isInverted then allBytes.filter fun b => !listed.contains b else listed
  if first.any Piece.fills then some "the [c*] repeat construct may not appear in string1"
  else second.bind fun ps =>
    if 1 < (ps.filter Piece.fills).length then
      some "only one [c*] repeat construct may appear in string2"
    else if translates then faultBetween isInverted truncates first ps source
    else if ps.any Piece.fills then
      some "the [c*] construct may appear in string2 only when translating"
    else none

/-- Pairs of bytes: each of the first set with the one at its place in the second, which is filled
up with its last byte. -/
def pairs (first second : Bytes) : List (UInt8 × UInt8) :=
  match second.getLast? with
  | none => []
  | some last =>
    first.zip (second ++ List.replicate (first.length - second.length) last)

/-- The byte that a byte becomes, the last pair winning. -/
def changeBy (table : List (UInt8 × UInt8)) : UInt8 → UInt8 :=
  let lookup : Array UInt8 := table.foldl (fun t (a, b) => t.set! a.toNat b) allBytes.toArray
  fun b => lookup.getD b.toNat b

/-- Is a byte in a set? -/
def isIn (set : Bytes) : UInt8 → Bool :=
  let table : Array Bool := set.foldl (fun t b => t.set! b.toNat true) (Array.replicate 256 false)
  fun b => table.getD b.toNat false

/-- The case that a set's parts change from or to, when they are single classes of letters. -/
def caseChange (first second : List Piece) : Option (List (UInt8 × UInt8)) :=
  let letters := bytesOf .lower
  let upper := bytesOf .upper
  match first, second with
  | [.named .lower], [.named .upper] => some (letters.zip upper)
  | [.named .upper], [.named .lower] => some (upper.zip letters)
  | _, _ => none

/-- The translation that options and sets ask for. -/
def ofSets (isInverted drops squeezes truncates : Bool) (first : List Piece)
    (second : Option (List Piece)) : Translation :=
  let firstBytes := expand first 0
  let firstBytes := if isInverted then allBytes.filter fun b => !isIn firstBytes b else firstBytes
  let secondBytes := (second.map fun ps => expand ps firstBytes.length).getD []
  let never : UInt8 → Bool := fun _ => false
  if drops then
    ⟨isIn firstBytes, id, if squeezes then isIn secondBytes else never⟩
  else match second with
    | none => ⟨never, id, if squeezes then isIn firstBytes else never⟩
    | some ps =>
      let kept := if truncates then firstBytes.take secondBytes.length else firstBytes
      let table := (caseChange first ps).getD (pairs kept secondBytes)
      ⟨never, changeBy table, if squeezes then isIn secondBytes else never⟩

end Translation

namespace Utility

/-- Copy the standard input, translated, within so many rounds. -/
def translateRounds (name : String) (t : Translation) : Nat → Option UInt8 → Task Nat
  | 0, _ => return 0
  | fuel + 1, last => do
    match ← Task.read 0 Task.chunk with
    | .error e =>
      complain name [Bytes.ofString "read error: ", reason e]
      return 1
    | .ok [] => return 0
    | .ok bytes =>
      let (last, out) := t.apply last bytes
      let code ← emit name out
      if code = 0 then translateRounds name t fuel last else return code

/-- Change, drop and squeeze bytes of the standard input. -/
def tr : Utility :=
  let table : OptionTable :=
    { flags := "cCdst".toList, isStrict := true
      long := [("complement", 'c'), ("delete", 'd'), ("squeeze-repeats", 's'),
        ("truncate-set1", 't')] }
  withUsage table 1 fun i u => do
    let drops := u.has 'd'
    let squeezes := u.has 's'
    let least := if drops != squeezes then 1 else 2
    let most := if drops && !squeezes then 1 else 2
    match u.operands with
    | [] => missingOperand i.name
    | first :: rest =>
      if u.operands.length < least then
        complain i.name [Bytes.ofString "missing operand after ", cited first]
        Task.warn (if squeezes && drops
          then "Two strings must be given when both deleting and squeezing repeats.\n"
          else "Two strings must be given when translating.\n")
        hint i.name
        return 1
      if let extra :: _ := u.operands.drop most then
        complain i.name [Bytes.ofString "extra operand ", cited extra]
        if least = 1 && drops && u.operands.length = 2 then
          Task.warn "Only one string may be given when deleting without squeezing repeats.\n"
        hint i.name
        return 1
      let sets := do
        let first ← Translation.pieces first
        let second ← rest.head?.mapM Translation.pieces
        return (first, second)
      match sets with
      | .error message =>
        complain i.name [Bytes.ofString message]
        return 1
      | .ok (first, second) =>
        let isInverted := u.has 'c' || u.has 'C'
        if let some message := Translation.fault? isInverted (!drops) (u.has 't') first second then
          complain i.name [Bytes.ofString message]
          return 1
        let t := Translation.ofSets isInverted drops squeezes (u.has 't') first second
        translateRounds i.name t Task.rounds none

end Utility

end CommandExpr.Machine
