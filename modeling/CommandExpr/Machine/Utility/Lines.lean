import CommandExpr.Machine.Utility.Quantity
import CommandExpr.Machine.Utility.Stream

/-!
# Lines and fields

The utilities that order lines, drop repeated ones, and cut out parts of them.

## Main definitions

* `SortOrder` — how two lines compare
* `Utility.sort`, `Utility.uniq`, `Utility.cut`
-/

namespace CommandExpr.Machine

/-- How keys are compared. -/
structure KeyOrder where
  /-- Are blanks in front left out? -/
  skipsBlanks : Bool := false
  /-- Do only letters, digits and blanks count? -/
  isDictionary : Bool := false
  /-- Does case not count? -/
  foldsCase : Bool := false
  /-- Are keys numbers? -/
  isNumeric : Bool := false
  /-- Are keys numbers that may have exponents? -/
  isGeneral : Bool := false
  /-- Are keys numbers with letters for factors? -/
  isHuman : Bool := false
  /-- Are keys names of months? -/
  isMonth : Bool := false
  /-- Are keys texts with numbers in them? -/
  isVersion : Bool := false
  /-- Do only characters that print count? -/
  isPrinting : Bool := false
  /-- Is the order turned round? -/
  isReversed : Bool := false

/-- A part of a line that is compared. -/
structure SortKey where
  /-- The field in which it starts, from zero. -/
  firstField : Nat
  /-- The character of the field at which it starts, from zero. -/
  firstChar : Nat
  /-- The field in which it ends and the character after its last one there, unless it goes on to
  the end of the line or of the field. -/
  last : Option (Nat × Nat)
  /-- How it is compared. -/
  order : KeyOrder

/-- How lines are compared. -/
structure SortOrder where
  /-- The character between fields; blanks in front of a field belong to it if there is none. -/
  separator : Option UInt8 := none
  /-- The keys, the first one first. -/
  keys : List SortKey := []
  /-- How whole lines are compared if there is no key. -/
  whole : KeyOrder := {}
  /-- Are lines with equal keys left in their order? -/
  isStable : Bool := false
  /-- Is only one of several lines with equal keys kept? -/
  isUnique : Bool := false

namespace KeyOrder

/-- Is it a blank? -/
def isBlank (b : UInt8) : Bool := b = 32 || b = 9

/-- Compare by bytes. -/
def compareBytes : Bytes → Bytes → Ordering
  | [], [] => .eq
  | [], _ => .lt
  | _, [] => .gt
  | a :: as, b :: bs => if a < b then .lt else if b < a then .gt else compareBytes as bs

/-- Compare two ratios, each a whole numerator over a denominator. -/
def compareRatios (x y : Int × Nat) : Ordering := compare (x.1 * y.2) (y.1 * x.2)

/-- What is read as a number: nothing comes first, then what is not a number, then the numbers from
below every ratio to above every ratio. -/
def generalRank : Option Quantity → Nat
  | none => 0
  | some (.undefined _) => 1
  | some (.infinity true) => 2
  | some (.ratio _ _ _) => 3
  | some (.infinity false) => 4

/-- Compare numbers that may have exponents. -/
def compareGeneral (x y : Option Quantity) : Ordering :=
  match compare (generalRank x) (generalRank y), x, y with
  | .eq, some (.ratio s a b), some (.ratio t c d) =>
    compareRatios (if s then -(a : Int) else a, b) (if t then -(c : Int) else c, d)
  | c, _, _ => c

/-- The number at the front of a text, without an exponent. -/
def plainNumber (s : Bytes) : Int × Nat :=
  let text := (Latin.ofBytes s).dropWhile fun c => c = ' ' || c = '\t'
  let (negative, body) := match text with
    | '-' :: rest => (true, rest)
    | _ => (false, text)
  let (whole, fraction, _) := Decimal.split body
  let units := (Numeral.digits? (whole ++ fraction)).getD 0
  (if negative then -units else units, 10 ^ fraction.length)

/-- How great the factor is that a letter after a number stands for; a number without one is as
great as its sign. -/
def humanRank (s : Bytes) : Int :=
  let text := (Latin.ofBytes s).dropWhile fun c => c = ' ' || c = '\t'
  let (negative, body) := match text with
    | '-' :: rest => (true, rest)
    | _ => (false, text)
  let (digits, _, rest) := Decimal.split body
  let rank : Int := match rest with
    | c :: _ => match "KMGTPEZYRQ".toList.idxOf? (if c = 'k' then 'K' else c) with
      | some i => i + 1
      | none => 0
    | [] => 0
  if digits.isEmpty then 0 else if negative then -rank else rank

/-- Compare numbers with letters for factors. -/
def compareHuman (x y : Bytes) : Ordering :=
  match compare (humanRank x) (humanRank y) with
  | .eq => compareRatios (plainNumber x) (plainNumber y)
  | c => c

/-- The number of a month by the start of its name, zero for no month. -/
def monthOf (s : Bytes) : Nat :=
  let text := ((Latin.ofBytes s).dropWhile fun c => c = ' ' || c = '\t').take 3 |>.map Char.toUpper
  let months := ["JAN", "FEB", "MAR", "APR", "MAY", "JUN", "JUL", "AUG", "SEP", "OCT", "NOV", "DEC"]
  (months.idxOf? (String.ofList text)).elim 0 (· + 1)

/-- The rank of a character where texts with numbers are compared: a tilde comes first, then the end
and digits, then letters, then everything else. -/
def versionRank : Option Char → Nat
  | some '~' => 0
  | none => 1
  | some c => if c.isDigit then 1 else if c.isAlpha then c.toNat + 1 else c.toNat + 1000

/-- Compare texts with numbers in them, part by part; the fuel bounds the parts. -/
def compareVersions : Nat → Chars → Chars → Ordering
  | 0, _, _ => .eq
  | fuel + 1, x, y =>
    let front (s : Chars) : Chars := s.takeWhile fun c => !c.isDigit
    let ranks (s : Chars) : List Nat := (s.map fun c => versionRank (some c)) ++ [versionRank none]
    match compareRanks (ranks (front x)) (ranks (front y)) with
    | .eq =>
      let x := x.drop (front x).length
      let y := y.drop (front y).length
      let digits (s : Chars) : Chars := s.takeWhile Char.isDigit
      let number (s : Chars) : Nat := (Numeral.digits? (digits s)).getD 0
      if x.isEmpty && y.isEmpty then .eq
      else match compare (number x) (number y) with
        | .eq => compareVersions fuel (x.drop (digits x).length) (y.drop (digits y).length)
        | c => c
    | c => c
where
  /-- Compare lists of ranks. -/
  compareRanks : List Nat → List Nat → Ordering
    | [], _ | _, [] => .eq
    | a :: as, b :: bs => if a < b then .lt else if b < a then .gt else compareRanks as bs

/-- Compare two keys. -/
def compareKeys (o : KeyOrder) (x y : Bytes) : Ordering :=
  let strip (s : Bytes) : Bytes := if o.skipsBlanks then s.dropWhile isBlank else s
  let counts (b : UInt8) : Bool :=
    isBlank b || (Char.ofNat b.toNat).isAlphanum
  let pick (s : Bytes) : Bytes :=
    let s := if o.isDictionary then s.filter counts else s
    if o.isPrinting then s.filter fun b => 32 ≤ b && b < 127 else s
  let fold (s : Bytes) : Bytes :=
    if o.foldsCase then s.map fun b => if 97 ≤ b && b ≤ 122 then b - 32 else b else s
  let prepare (s : Bytes) : Bytes := fold (pick (strip s))
  if o.isGeneral then
    let read (s : Bytes) : Option Quantity := (Quantity.ofFront? (Latin.ofBytes s)).map (·.1)
    compareGeneral (read x) (read y)
  else if o.isNumeric then compareRatios (plainNumber x) (plainNumber y)
  else if o.isHuman then compareHuman x y
  else if o.isMonth then compare (monthOf x) (monthOf y)
  else if o.isVersion then
    compareVersions (x.length + y.length + 1) (Latin.ofBytes (strip x)) (Latin.ofBytes (strip y))
  else compareBytes (prepare x) (prepare y)

/-- The order with what an option letter asks for. -/
def withLetter (o : KeyOrder) (c : Char) : KeyOrder :=
  if c = 'b' then { o with skipsBlanks := true }
  else if c = 'd' then { o with isDictionary := true }
  else if c = 'f' then { o with foldsCase := true }
  else if c = 'n' then { o with isNumeric := true }
  else if c = 'g' then { o with isGeneral := true }
  else if c = 'h' then { o with isHuman := true }
  else if c = 'M' then { o with isMonth := true }
  else if c = 'V' then { o with isVersion := true }
  else if c = 'i' then { o with isPrinting := true }
  else if c = 'r' then { o with isReversed := true }
  else o

/-- The letters that say how keys are compared. -/
def letters : Chars := "bdfngrhMVRi".toList

/-- The letters of the ways to read a key, of which only one may be asked for at a time. -/
def readings (o : KeyOrder) : Chars :=
  [(o.isDictionary, 'd'), (o.isGeneral, 'g'), (o.isHuman, 'h'), (o.isPrinting, 'i'),
    (o.isMonth, 'M'), (o.isNumeric, 'n'), (o.isVersion, 'V')].filterMap fun (asked, c) =>
      if asked then some c else none

/-- The letters of an order that asks for several ways to read a key at once. -/
def conflict? (o : KeyOrder) : Option Chars :=
  let readings := o.readings.filter fun c => c ≠ 'd' || !o.isPrinting
  if readings.length < 2 then none
  else some ("dfghiMnRrV".toList.filter fun c => o.readings.contains c || (c = 'f' && o.foldsCase))

end KeyOrder

namespace SortOrder

/-- Where the fields of a line start and end. -/
def fieldsFrom (separator : Option UInt8) (isInBlanks : Bool) : Nat → Nat → Bytes → List (Nat × Nat)
  | start, i, [] => [(start, i)]
  | start, i, b :: rest =>
    match separator with
    | some c =>
      if b = c then (start, i) :: fieldsFrom separator true (i + 1) (i + 1) rest
      else fieldsFrom separator false start (i + 1) rest
    | none =>
      if KeyOrder.isBlank b && !isInBlanks then
        (start, i) :: fieldsFrom separator true i (i + 1) rest
      else fieldsFrom separator (KeyOrder.isBlank b) start (i + 1) rest

/-- The part of a line that a key takes. -/
def part (o : SortOrder) (k : SortKey) (line : Bytes) : Bytes :=
  let fields := fieldsFrom o.separator true 0 0 line
  let skip (start stop : Nat) : Nat :=
    if k.order.skipsBlanks then
      start + ((line.take stop).drop start |>.takeWhile KeyOrder.isBlank).length
    else start
  match fields[k.firstField]? with
  | none => []
  | some (start, _) =>
    let start := min line.length (skip start line.length + k.firstChar)
    let stop := match k.last with
      | none => line.length
      | some (field, 0) => ((fields[field]?).map (·.2)).getD line.length
      | some (field, n) =>
        match fields[field]? with
        | some (s, _) => min line.length (skip s line.length + n)
        | none => line.length
    (line.take stop).drop start

/-- The first difference in a list of comparisons. -/
def firstDifference : List Ordering → Ordering
  | [] => .eq
  | .eq :: rest => firstDifference rest
  | o :: _ => o

/-- Compare two lines by their keys alone. -/
def compareKeyed (o : SortOrder) (x y : Bytes) : Ordering :=
  let turned (r : Bool) (c : Ordering) : Ordering := if r then c.swap else c
  if o.keys.isEmpty then turned o.whole.isReversed (o.whole.compareKeys x y)
  else firstDifference (o.keys.map fun k =>
    turned k.order.isReversed (k.order.compareKeys (o.part k x) (o.part k y)))

/-- Compare two lines; those with equal keys by their bytes, unless they are to be left. -/
def compareLines (o : SortOrder) (x y : Bytes) : Ordering :=
  match o.compareKeyed x y with
  | .eq =>
    if o.isStable || o.isUnique then .eq
    else
      let c := KeyOrder.compareBytes x y
      if o.whole.isReversed then c.swap else c
  | c => c

/-- Keep the first of lines in a row with equal keys. -/
def dropRepeated (o : SortOrder) (ls : List Bytes) : List Bytes :=
  ls.foldr (fun x kept =>
    match kept with
    | y :: rest => if o.compareKeyed x y = .eq then x :: rest else x :: y :: rest
    | [] => [x]) []

/-- Does a line come no later than another? -/
def le (o : SortOrder) (x y : Bytes) : Bool := o.compareLines x y ≠ .gt

/-- Lines in order. -/
def sorted (o : SortOrder) (ls : List Bytes) : List Bytes := ls.mergeSort o.le

/-- Lines of files that are in order each, in one order. -/
def merged (o : SortOrder) (files : List (List Bytes)) : List Bytes :=
  files.foldl (fun done ls => done.merge ls o.le) []

/-- A place in a key's text: a field, a character, and letters. -/
def position? (s : Chars) : Option (Nat × Option Nat × Chars) :=
  let digits := s.takeWhile Utility.isDigit
  (Numeral.digits? digits).bind fun field =>
    match s.drop digits.length with
    | '.' :: rest =>
      let more := rest.takeWhile Utility.isDigit
      (Numeral.digits? more).map fun char => (field, some char, rest.drop more.length)
    | rest => some (field, none, rest)

/-- The key that a text tells; without letters of its own it takes the order of whole lines. -/
def key? (whole : KeyOrder) (text : Bytes) : Option SortKey :=
  let s := Latin.ofBytes text
  let from_ := s.takeWhile (· ≠ ',')
  let to_ := (s.drop from_.length).drop 1
  match position? from_ with
  | some (field + 1, char, letters) =>
    let last := if from_.length = s.length then some (none, []) else
      (position? to_).map fun (f, c, more) => (some (f - 1, c.getD 0), more)
    last.bind fun (last, more) =>
      let all := letters ++ more
      if all.all KeyOrder.letters.contains then
        let order := if all.isEmpty then whole else all.foldl KeyOrder.withLetter {}
        some ⟨field, (char.getD 1) - 1, last, order⟩
      else none
  | _ => none

end SortOrder

namespace Utility

/-- The options of sorting. -/
def sortTable : OptionTable :=
  { flags := "bdfngrsuczmhMVRiC".toList, valued := "ktoST".toList
    long := [("reverse", 'r'), ("numeric-sort", 'n'), ("unique", 'u'), ("ignore-case", 'f'),
      ("key", 'k'), ("field-separator", 't'), ("stable", 's'), ("output", 'o'), ("check", 'c'),
      ("ignore-leading-blanks", 'b'), ("dictionary-order", 'd'), ("general-numeric-sort", 'g'),
      ("human-numeric-sort", 'h'), ("month-sort", 'M'), ("version-sort", 'V'), ("random-sort", 'R'),
      ("zero-terminated", 'z'), ("merge", 'm'), ("ignore-nonprinting", 'i')] }

/-- Put the lines of the input in order. -/
def sort : Utility :=
  withUsage sortTable 2 fun i u => do
    let whole := (u.options.map (·.1)).foldl KeyOrder.withLetter {}
    let mut keys : List SortKey := []
    for (c, value) in u.options do
      if c = 'k' then
        match SortOrder.key? whole value with
        | some key => keys := keys ++ [key]
        | none =>
          complain i.name [
            Bytes.ofString "invalid number at field start: invalid count at start of ",
            cited value]
          return 2
    let mark := (u.value? 't').getD []
    let separator := if mark = Bytes.ofString "\\0" then some 0 else mark.head?
    if (u.value? 't') = some [] then
      complain i.name [Bytes.ofString "empty tab"]
      return 2
    if 1 < mark.length && separator ≠ some 0 then
      complain i.name [Bytes.ofString "multi-character tab ", cited mark]
      return 2
    let order : SortOrder := ⟨separator, keys, whole, u.has 's', u.has 'u'⟩
    let stop : UInt8 := if u.has 'z' then 0 else Bytes.newline
    let isCheck := u.has 'c' || u.has 'C'
    if let (true, _ :: extra :: _) := (isCheck, u.operands) then
      complain i.name [Bytes.ofString "extra operand ", cited extra,
        Bytes.ofString " not allowed with -c"]
      return 2
    let orders := if keys.isEmpty then [whole] else keys.map (·.order)
    if let some letters := orders.findSome? KeyOrder.conflict? then
      let asked := String.ofList ('-' :: letters)
      complain i.name [Bytes.ofString s!"options '{asked}' are incompatible"]
      return 2
    let mut files : List (List Bytes) := []
    for file in (if u.operands.isEmpty then [dash] else u.operands) do
      match ← readInput file with
      | .ok bytes => files := files ++ [linesUntil stop bytes]
      | .error e =>
        let what := if isCheck || e ≠ .isDirectory then "cannot read: " else "read failed: "
        complain i.name [Bytes.ofString what, named file, Bytes.ofString ": ", reason e]
        return 2
    if isCheck then
      let isOrdered (x y : Bytes) : Bool :=
        if u.has 'u' then order.compareLines x y = .lt else order.compareLines x y ≠ .gt
      let all := files.flatten
      match ((all.zip (all.drop 1)).zipIdx 2).find? fun ((x, y), _) => !isOrdered x y with
      | none => return 0
      | some ((_, y), n) =>
        if u.has 'c' then
          let file := u.operands.headD dash
          complain i.name [file, Bytes.ofString s!":{n}: disorder: ", y]
        return 1
    let ordered := if u.has 'm' then order.merged files else order.sorted files.flatten
    let kept := if order.isUnique then order.dropRepeated ordered else ordered
    let text := unlinesWith stop kept
    match u.value? 'o' with
    | none => if (← emit i.name text) = 0 then return 0 else return 2
    | some file =>
      match ← Task.open file { isWritable := true, creates := true, truncates := true } with
      | .error e =>
        complain i.name [Bytes.ofString "open failed: ", named file, Bytes.ofString ": ", reason e]
        return 2
      | .ok fd =>
        let _ ← Task.write fd text
        return 0

/-- Put lines, arguments or numbers in some order. Any order will do; here they stay in theirs. -/
def shuf : Utility :=
  let table : OptionTable :=
    { flags := "erz".toList, valued := "inoR".toList
      long := [("echo", 'e'), ("repeat", 'r'), ("zero-terminated", 'z'), ("input-range", 'i'),
        ("head-count", 'n'), ("output", 'o'), ("random-source", 'R')] }
  withUsage table 1 fun i u => do
    let stop : UInt8 := if u.has 'z' then 0 else Bytes.newline
    let range? := (u.value? 'i').map fun text =>
      let s := Latin.ofBytes text
      let low := s.takeWhile (· ≠ '-')
      match Numeral.digits? low, Numeral.digits? (s.drop (low.length + 1)) with
      | some a, some b =>
        some ((List.range (b + 1 - a)).map fun k => Bytes.ofString (toString (a + k)))
      | _, _ => none
    let all ← match range?, u.has 'e' with
      | some numbers, _ => pure numbers
      | none, true => pure (some u.operands)
      | none, false => do
        match ← readInput (u.operands.headD dash) with
        | .ok bytes => pure (some (linesUntil stop bytes))
        | .error e =>
          complainOf i.name (u.operands.headD dash) e
          return 1
    match all with
    | none =>
      complain i.name [Bytes.ofString "invalid input range: ", cited ((u.value? 'i').getD [])]
      return 1
    | some all =>
      let kept := match (u.value? 'n').bind fun text => Numeral.digits? (Latin.ofBytes text) with
        | some n => all.take n
        | none => all
      emit i.name (unlinesWith stop kept)

/-! ## Repeated lines -/

/-- Lines in a row that count as equal, together. -/
def runs (key : Bytes → Bytes) (ls : List Bytes) : List (List Bytes) :=
  ls.foldr (fun x found =>
    match found with
    | (y :: ys) :: more =>
      if key x = key y then (x :: y :: ys) :: more else [x] :: (y :: ys) :: more
    | _ => [[x]]) []

/-- Drop the first fields of a line, each with the blanks in front of it. -/
def dropFields : Nat → Bytes → Bytes
  | 0, s => s
  | n + 1, s =>
    dropFields n ((s.dropWhile KeyOrder.isBlank).dropWhile fun b => !KeyOrder.isBlank b)

/-- Drop lines that repeat the one before. -/
def uniq : Utility :=
  let table : OptionTable :=
    { flags := "cdiuDz".toList, valued := "fsw".toList
      long := [("count", 'c'), ("repeated", 'd'), ("all-repeated", 'D'), ("ignore-case", 'i'),
        ("unique", 'u'), ("skip-fields", 'f'), ("skip-chars", 's'), ("check-chars", 'w'),
        ("zero-terminated", 'z')] }
  withUsage table 1 fun i u => do
    let fault (parts : List Bytes) : Task Nat := do
      complain i.name parts
      return 1
    let number (c : Char) : Option (Option Nat) :=
      match u.value? c with
      | none => some none
      | some v => (Numeral.digits? (Latin.ofBytes v)).map some
    let stop : UInt8 := if u.has 'z' then 0 else Bytes.newline
    match number 'f', number 's', number 'w' with
    | none, _, _ =>
      fault [cited ((u.value? 'f').getD []), Bytes.ofString ": invalid number of fields to skip"]
    | _, none, _ =>
      fault [cited ((u.value? 's').getD []), Bytes.ofString ": invalid number of bytes to skip"]
    | _, _, none =>
      fault [cited ((u.value? 'w').getD []), Bytes.ofString ": invalid number of bytes to compare"]
    | some fields, some skipped, some width =>
      if u.has 'c' && u.has 'D' then
        let code ← fault
          [Bytes.ofString "printing all duplicated lines and repeat counts is meaningless"]
        hint i.name
        return code
      if let _ :: _ :: extra :: _ := u.operands then return ← extraOperand i.name extra
      let key (s : Bytes) : Bytes :=
        let s := (dropFields (fields.getD 0) s).drop (skipped.getD 0)
        let s := match width with
          | some n => s.take n
          | none => s
        if u.has 'i' then s.map fun b => if 65 ≤ b && b ≤ 90 then b + 32 else b else s
      let (bytes, code) ← readInputs i.name (u.operands.take 1)
      if code ≠ 0 then return code
      let groups := runs key (linesUntil stop bytes)
      let shown := groups.filter fun g =>
        (!(u.has 'd' || u.has 'D') || 1 < g.length) && (!u.has 'u' || g.length = 1)
      let text := shown.flatMap fun g =>
        let front := if u.has 'c' then padStart ' ' 7 (Nat.toDigits 10 g.length) ++ [' '] else []
        let kept := if u.has 'D' then g else g.take 1
        kept.flatMap fun line => Latin.toBytes front ++ line ++ [stop]
      match u.operands[1]? with
      | none => emit i.name text
      | some file =>
        match ← Task.open file { isWritable := true, creates := true, truncates := true } with
        | .error e =>
          complainOf i.name file e
          return 1
        | .ok fd =>
          let _ ← Task.write fd text
          return 0

/-! ## Parts of lines -/

/-- A range of positions, from one on. -/
structure Span where
  /-- The first one. -/
  first : Nat
  /-- The last one, unless it goes on to the end. -/
  last : Option Nat

/-- Is a position in a range? -/
def Span.holds (s : Span) (n : Nat) : Bool := s.first ≤ n && s.last.all (n ≤ ·)

/-- The range that a text tells, or what is wrong with it. -/
def span (s : Chars) (zero value : String) : Except String Span :=
  let low := s.takeWhile isDigit
  let first (n : Nat) : Except String Nat := if n = 0 then .error zero else .ok n
  match s.drop low.length with
  | [] => do
    let n ← first ((Numeral.digits? low).getD 0)
    return ⟨n, some n⟩
  | '-' :: high =>
    match Numeral.digits? low, Numeral.digits? high with
    | none, none =>
      .error (if high.isEmpty then "invalid range with no endpoint: -" else value)
    | a, some b => do
      let a ← first (a.getD 1)
      if b < a then throw "invalid decreasing range"
      return ⟨a, some b⟩
    | some a, none => do
      if !high.isEmpty then throw value
      return ⟨← first a, none⟩
  | _ => .error value

/-- The ranges that a text lists, or what is wrong with them. -/
def spans (text : Bytes) (isFields : Bool) : Except String (List Span) :=
  let zero := if isFields then "fields are numbered from 1"
    else "byte/character positions are numbered from 1"
  let shown (piece : Bytes) : String :=
    let what := if isFields then "invalid field value " else "invalid byte/character position "
    what ++ String.ofList (Latin.ofBytes (cited piece))
  let separated := text.map fun b => if b = 32 || b = 9 then 44 else b
  (Bytes.splitOn 44 separated).mapM fun piece => span (Latin.ofBytes piece) zero (shown piece)

/-- The chosen ones of some things in a row, by their positions. -/
def chosen {α : Type} (spans : List Span) (isInverted : Bool) (xs : List α) : List (α × Nat) :=
  (xs.zipIdx 1).filter fun (_, n) => isInverted != spans.any (·.holds n)

/-- Things with a separator where positions do not follow each other or a range starts. -/
def separated (spans : List Span) (between : Bytes) : Option Nat → List (UInt8 × Nat) → Bytes
  | _, [] => []
  | last, (b, n) :: rest =>
    let starts := spans.any fun s => s.first = n && !(spans.any fun t => t.first < n && t.holds n)
    let isApart := last.any fun m => m + 1 < n || starts
    (if isApart then between else []) ++ b :: separated spans between (some n) rest

/-- Cut parts out of each line. -/
def cut : Utility :=
  let table : OptionTable :=
    { flags := "snCz".toList, valued := "bcfdO".toList
      long := [("bytes", 'b'), ("characters", 'c'), ("fields", 'f'), ("delimiter", 'd'),
        ("only-delimited", 's'), ("complement", 'C'), ("output-delimiter", 'O'),
        ("zero-terminated", 'z')] }
  withUsage table 1 fun i u => do
    let refuse (message : String) : Task Nat := do
      complain i.name [Bytes.ofString message]
      hint i.name
      return 1
    let kinds := u.options.filter fun (c, _) => ['b', 'c', 'f'].contains c
    let delimiter := (u.value? 'd').getD [9]
    match kinds with
    | [] => refuse "you must specify a list of bytes, characters, or fields"
    | _ :: _ :: _ => refuse "only one list may be specified"
    | [(kind, text)] =>
      let isFields := kind = 'f'
      if 1 < delimiter.length then return ← refuse "the delimiter must be a single character"
      if !isFields && u.has 'd' then
        return ← refuse "an input delimiter may be specified only when operating on fields"
      if !isFields && u.has 's' then
        return ← refuse ("suppressing non-delimited lines makes sense\n\t"
          ++ "only when operating on fields")
      match spans text isFields with
      | .error message => refuse message
      | .ok spans =>
        let stop : UInt8 := if u.has 'z' then 0 else Bytes.newline
        let mark := delimiter.headD 0
        let between := (u.value? 'O').getD (if isFields then [mark] else [])
        let part (line : Bytes) : Option Bytes :=
          if isFields then
            if !line.contains mark then (if u.has 's' then none else some line)
            else
              let fields := (chosen spans (u.has 'C') (Bytes.splitOn mark line)).map (·.1)
              some (fields.intersperse between).flatten
          else
            let kept := chosen spans (u.has 'C') line
            some (separated (if u.has 'C' then [] else spans) between none kept)
        let (bytes, code) ← readInputs i.name u.operands
        let kept := (linesUntil stop bytes).filterMap part
        return max code (← emit i.name (unlinesWith stop kept))

end Utility

end CommandExpr.Machine
