import CommandExpr.Machine.Utility.Basic

/-!
# Patterns

Regular expressions over single characters, in the basic and the extended notation, and fixed texts.
A pattern is matched through the set of places at which a match that starts at a given place may
end. Where it matters what groups stand for, each such place comes with the parts that they matched.

## Main definitions

* `Pattern` — a pattern
* `Pattern.ends` — where its matches end
* `Pattern.finds` — where its matches end, with the parts that its groups matched
* `Pattern.ofText` — the pattern of a text in one of the notations
-/

namespace CommandExpr.Machine

/-- A class of characters. -/
inductive CharClass where
  | alpha | digit | alnum | upper | lower | space | blank | punct | print | graph | cntrl | xdigit
  /-- What words are made of. -/
  | word
  deriving DecidableEq

namespace CharClass

/-- Is a character in a class? -/
def holds (k : CharClass) (c : Char) : Bool :=
  let isGraph := '!' ≤ c && c ≤ '~'
  match k with
  | alpha => c.isAlpha
  | digit => c.isDigit
  | alnum => c.isAlphanum
  | upper => c.isUpper
  | lower => c.isLower
  | space => c = ' ' || ('\t' ≤ c && c ≤ '\r')
  | blank => c = ' ' || c = '\t'
  | punct => isGraph && !c.isAlphanum
  | print => isGraph || c = ' '
  | graph => isGraph
  | cntrl => c < ' ' || c = '\x7f'
  | xdigit => c.isDigit || ('a' ≤ c.toLower && c.toLower ≤ 'f')
  | word => c.isAlphanum || c = '_'

/-- The classes by name. -/
def names : List (String × CharClass) :=
  [("alpha", alpha), ("digit", digit), ("alnum", alnum), ("upper", upper), ("lower", lower),
    ("space", space), ("blank", blank), ("punct", punct), ("print", print), ("graph", graph),
    ("cntrl", cntrl), ("xdigit", xdigit)]

/-- The class of a name. -/
def ofName? (name : Chars) : Option CharClass := names.lookup (String.ofList name)

end CharClass

/-- A part of a set of characters. -/
inductive SetItem where
  | range (low high : Char)
  | named (k : CharClass)
  deriving DecidableEq

/-- A set of characters, or what is not in one. -/
structure CharSet where
  /-- Is it what is not in the parts? -/
  isNegated : Bool
  /-- The parts. -/
  items : List SetItem
  deriving DecidableEq

/-- Is a character in a set? -/
def CharSet.holds (s : CharSet) (c : Char) : Bool :=
  s.isNegated != s.items.any fun
    | .range low high => low ≤ c && c ≤ high
    | .named k => k.holds c

/-- A place in a line. -/
inductive Anchor where
  | start | stop | wordStart | wordStop | edge | inside
  deriving DecidableEq

/-- A pattern. -/
inductive Pattern where
  | empty
  | one (s : CharSet)
  | place (a : Anchor)
  | both (p q : Pattern)
  | either (p q : Pattern)
  /-- At least so many times, and at most so many. -/
  | many (p : Pattern) (low : Nat) (high : Option Nat)
  /-- A group, with its number. -/
  | group (n : Nat) (p : Pattern)
  /-- What a group matched, once more. -/
  | back (n : Nat)
  deriving DecidableEq

namespace Pattern

/-- The pattern of one character. -/
def char (c : Char) : Pattern := .one ⟨false, [.range c c]⟩

/-- The pattern of any character. -/
def any : Pattern := .one ⟨true, []⟩

/-! ## Matching -/

/-- Is there a character of a word at a place? -/
def isWordAt (s : Array Char) (i : Nat) : Bool := (s[i]?).any CharClass.word.holds

/-- Does an anchor hold at a place? -/
def holdsAt (s : Array Char) (i : Nat) (a : Anchor) : Bool :=
  let before := 0 < i && isWordAt s (i - 1)
  let after := isWordAt s i
  match a with
  | .start => i = 0
  | .stop => i = s.size
  | .wordStart => !before && after
  | .wordStop => before && !after
  | .edge => before != after
  | .inside => before == after

/-- The places that can be reached by so many steps, at least `low` and at most `high`. -/
def reach (step : Nat → List Nat) : Nat → Nat → Option Nat → List Nat → List Nat → List Nat
  | 0, _, _, _, seen => seen
  | fuel + 1, low, high, now, seen =>
    let seen := if low = 0 then (seen ++ now).eraseDups else seen
    if high = some 0 || now.isEmpty then seen
    else
      let next := (now.flatMap step).eraseDups
      let next := if low = 0 then next.filter fun i => !seen.contains i else next
      reach step fuel (low - 1) (high.map (· - 1)) next seen

/-- Where the matches that start at a place end. -/
def ends (s : Array Char) (fold : Bool) : Pattern → Nat → List Nat
  | empty, i => [i]
  | one set, i =>
    match s[i]? with
    | some c =>
      if set.holds c || (fold && (set.holds c.toLower || set.holds c.toUpper)) then [i + 1] else []
    | none => []
  | place a, i => if holdsAt s i a then [i] else []
  | both p q, i => ((ends s fold p i).flatMap (ends s fold q)).eraseDups
  | either p q, i => (ends s fold p i ++ ends s fold q i).eraseDups
  | many p low high, i => reach (ends s fold p) (s.size + low + 2) low high [i] []
  | group _ p, i => ends s fold p i
  | back _, _ => []

/-- Does a pattern refer to what a group matched? -/
def refersBack : Pattern → Bool
  | both p q | either p q => refersBack p || refersBack q
  | many p _ _ | group _ p => refersBack p
  | back _ => true
  | empty | one _ | place _ => false

/-- A place with the parts that groups matched on the way to it: where each starts and ends, the last
one first. -/
abbrev Trace := Nat × List (Nat × Nat × Nat)

/-- The places that can be reached by at least `low` and at most `high` steps, those by more steps
first; a step that goes nowhere is not repeated. -/
def climb (step : Trace → List Trace) : Nat → Nat → Option Nat → Trace → List Trace
  | 0, _, _, _ => []
  | fuel + 1, low, high, t =>
    let next := if high = some 0 then [] else step t
    let next := if low = 0 then next.filter fun u => u.1 ≠ t.1 else next
    let further := next.flatMap (climb step fuel (low - 1) (high.map (· - 1)))
    (if low = 0 then further ++ [t] else further).eraseDups

/-- Where the matches that start at a place end, with the parts that groups matched. -/
def finds (s : Array Char) (fold : Bool) : Pattern → Trace → List Trace
  | both p q, t => ((finds s fold p t).flatMap (finds s fold q)).eraseDups
  | either p q, t => (finds s fold p t ++ finds s fold q t).eraseDups
  | many p low high, t => climb (finds s fold p) (s.size + low + 2) low high t
  | group n p, (i, seen) =>
    (finds s fold p (i, seen)).map fun (j, seen) =>
      (j, (n, i, j) :: seen.filter fun (m, _) => m ≠ n)
  | back n, (i, seen) =>
    match seen.lookup n with
    | none => []
    | some (start, stop) =>
      let isSame (c d : Char) : Bool := c = d || (fold && c.toLower = d.toLower)
      let length := stop - start
      let part := (s.extract start stop).toList
      let here := (s.extract i (i + length)).toList
      if here.length = length && (part.zip here).all fun (c, d) => isSame c d then
        [(i + length, seen)]
      else []
  | p, (i, seen) => (ends s fold p i).map fun j => (j, seen)

/-- Where the matches that start at a place end. -/
def stops (s : Array Char) (fold : Bool) (p : Pattern) (i : Nat) : List Nat :=
  if p.refersBack then ((p.finds s fold (i, [])).map (·.1)).eraseDups else p.ends s fold i

/-- The longest match that starts at a place: where it ends, and what its groups matched. -/
def longest? (s : Array Char) (fold : Bool) (p : Pattern) (i : Nat) : Option Trace :=
  let all := p.finds s fold (i, [])
  (all.map (·.1)).max?.bind fun j => all.find? fun t => t.1 = j

/-! ## Notations -/

/-- A piece of a notation. -/
inductive Piece where
  | unit (p : Pattern)
  | opening
  | closing
  | bar
  | times (low : Nat) (high : Option Nat)
  deriving DecidableEq

/-- The notations. -/
inductive Dialect where
  | basic | extended | fixed
  deriving DecidableEq

/-- A character in brackets that closes an inner bracket. -/
def bracketName (kind : Char) : Chars → Option (Chars × Chars)
  | [] => none
  | [_] => none
  | c :: d :: rest =>
    if c = kind && d = ']' then some ([], rest)
    else (bracketName kind (d :: rest)).map fun (name, rest) => (c :: name, rest)

/-- The words for brackets that are not closed. -/
def unclosed : String := "Unmatched [, [^, [:, [., or [="

/-- The parts in brackets, up to the closing one, or why they are none. A range whose ends are in
the wrong order is empty, or an error where that is refused. -/
def setItems (refusesOrder : Bool) : Nat → Bool → Chars → Except String (List SetItem × Chars)
  | 0, _, _ => .error unclosed
  | _ + 1, _, [] => .error unclosed
  | fuel + 1, isFirst, c :: rest =>
    if c = ']' && !isFirst then .ok ([], rest)
    else
      let with_ (item : SetItem) (rest : Chars) : Except String (List SetItem × Chars) :=
        (setItems refusesOrder fuel false rest).map fun (items, rest) => (item :: items, rest)
      let plain : Except String (List SetItem × Chars) :=
        match rest with
        | '-' :: d :: rest' =>
          if d = ']' then with_ (.range c c) rest
          else if refusesOrder && d < c then .error "Invalid range end"
          else with_ (.range c d) rest'
        | _ => with_ (.range c c) rest
      match c, rest with
      | '[', ':' :: rest' =>
        match bracketName ':' rest' with
        | some (name, rest'') =>
          match CharClass.ofName? name with
          | some k => with_ (.named k) rest''
          | none => .error "Invalid character class name"
        | none => plain
      | '[', '=' :: rest' | '[', '.' :: rest' =>
        match bracketName (rest.headD '=') rest' with
        | some ([d], rest'') => with_ (.range d d) rest''
        | _ => plain
      | _, _ => plain

/-- Are brackets a class whose own brackets were forgotten? -/
def isBareClass (body : Chars) : Bool :=
  match body with
  | ':' :: rest => (bracketName ':' rest).any fun (name, _) => name.all Char.isLower
  | _ => false

/-- The set in brackets, the opening one read already, or why there is none. Likely mistakes are
refused where that is asked for. -/
def bracket (refusesMistakes : Bool) (s : Chars) : Except String (CharSet × Chars) :=
  if refusesMistakes && isBareClass s then .error "character class syntax is [[:space:]], not [:space:]"
  else
    let (isNegated, body) := match s with
      | '^' :: rest => (true, rest)
      | _ => (false, s)
    (setItems refusesMistakes (body.length + 1) true body).map fun (items, rest) => (⟨isNegated, items⟩, rest)

/-- The bounds of a repetition, up to the mark that closes them. -/
def bounds (closing : Chars) (s : Chars) : Option ((Nat × Option Nat) × Chars) :=
  let digits := s.takeWhile Utility.isDigit
  let low := (Numeral.digits? digits).getD 0
  let closed (high : Option Nat) (rest : Chars) : Option ((Nat × Option Nat) × Chars) :=
    if closing.isPrefixOf rest then some ((low, high), rest.drop closing.length) else none
  match s.drop digits.length with
  | ',' :: rest =>
    let more := rest.takeWhile Utility.isDigit
    closed (Numeral.digits? more) (rest.drop more.length)
  | rest => if digits.isEmpty then none else closed (some low) rest

/-- The pattern of an escaped character that stands for more than itself. -/
def escaped (c : Char) : Option Pattern :=
  match c with
  | 'w' => some (.one ⟨false, [.named .word]⟩)
  | 'W' => some (.one ⟨true, [.named .word]⟩)
  | 's' => some (.one ⟨false, [.named .space]⟩)
  | 'S' => some (.one ⟨true, [.named .space]⟩)
  | '<' => some (.place .wordStart)
  | '>' => some (.place .wordStop)
  | 'b' => some (.place .edge)
  | 'B' => some (.place .inside)
  | _ => none

/-- The group that an escaped digit refers to. -/
def reference? (c : Char) : Option Nat := (Numeral.digit? c).filter (0 < ·)

/-- Can a star not repeat anything after this piece? -/
def isFront : Option Piece → Bool
  | none | some .opening | some .bar | some (.unit (.place .start)) => true
  | _ => false

/-- The pieces of a text in the basic notation, or why it is none. -/
def basicPieces : Nat → Option Piece → Chars → Except String (List Piece)
  | 0, _, _ | _ + 1, _, [] => .ok []
  | fuel + 1, last, c :: rest =>
    let go (p : Piece) (rest : Chars) : Except String (List Piece) :=
      (basicPieces fuel (some p) rest).map (p :: ·)
    let isAtFront := match last with
      | none | some .opening | some .bar => true
      | _ => false
    match c with
    | '\\' =>
      match rest with
      | [] => .error "Trailing backslash"
      | d :: rest =>
        if let some n := reference? d then go (.unit (.back n)) rest
        else match d with
        | '(' => go .opening rest
        | ')' => go .closing rest
        | '|' => go .bar rest
        | '+' => if isFront last then go (.unit (char d)) rest else go (.times 1 none) rest
        | '?' => if isFront last then go (.unit (char d)) rest else go (.times 0 (some 1)) rest
        | '\x7b' =>
          match bounds ['\\', '\x7d'] rest with
          | some ((low, high), rest) =>
            if high.any (· < low) then .error "Invalid content of \\\x7b\\\x7d"
            else go (.times low high) rest
          | none => .error "Unmatched \\\x7b"
        | _ => go (.unit ((escaped d).getD (char d))) rest
    | '*' => if isFront last then go (.unit (char c)) rest else go (.times 0 none) rest
    | '.' => go (.unit any) rest
    | '[' => (bracket true rest).bind fun (set, rest) => go (.unit (.one set)) rest
    | '^' => go (.unit (if isAtFront then .place .start else char c)) rest
    | '$' =>
      let isLast := match rest with
        | [] | '\\' :: ')' :: _ | '\\' :: '|' :: _ => true
        | _ => false
      go (.unit (if isLast then .place .stop else char c)) rest
    | _ => go (.unit (char c)) rest

/-- The pieces of a text in the extended notation, or why it is none. -/
def extendedPieces : Nat → Option Piece → Chars → Except String (List Piece)
  | 0, _, _ | _ + 1, _, [] => .ok []
  | fuel + 1, last, c :: rest =>
    let go (p : Piece) (rest : Chars) : Except String (List Piece) :=
      (extendedPieces fuel (some p) rest).map (p :: ·)
    let repeated (low : Nat) (high : Option Nat) : Except String (List Piece) :=
      if isFront last then extendedPieces fuel last rest else go (.times low high) rest
    match c with
    | '\\' =>
      match rest with
      | [] => .error "Trailing backslash"
      | d :: rest =>
        match reference? d with
        | some n => go (.unit (.back n)) rest
        | none => go (.unit ((escaped d).getD (char d))) rest
    | '(' => go .opening rest
    | ')' => go .closing rest
    | '|' => go .bar rest
    | '*' => repeated 0 none
    | '+' => repeated 1 none
    | '?' => repeated 0 (some 1)
    | '\x7b' =>
      match bounds ['\x7d'] rest with
      | some ((low, high), rest) =>
        if high.any (· < low) then .error "Invalid content of \\\x7b\\\x7d"
        else if isFront last then extendedPieces fuel last rest
        else go (.times low high) rest
      | none => go (.unit (char c)) rest
    | '.' => go (.unit any) rest
    | '[' => (bracket true rest).bind fun (set, rest) => go (.unit (.one set)) rest
    | '^' => go (.unit (.place .start)) rest
    | '$' => go (.unit (.place .stop)) rest
    | _ => go (.unit (char c)) rest

/-- What was read of a pattern: alternatives that are complete, what stands before the last unit of
the current one, and that unit. -/
structure Partial where
  /-- The alternatives that are complete. -/
  done : Option Pattern := none
  /-- The current alternative without its last unit. -/
  front : Pattern := .empty
  /-- The last unit. -/
  last : Pattern := .empty
  /-- The number of the group that is open. -/
  index : Nat := 0

namespace Partial

/-- The alternative that is under way. -/
def current (p : Partial) : Pattern :=
  match p.front, p.last with
  | .empty, q => q
  | q, .empty => q
  | q, r => .both q r

/-- All that was read. -/
def whole (p : Partial) : Pattern :=
  match p.done with
  | some d => .either d p.current
  | none => p.current

/-- A further unit. -/
def add (p : Partial) (q : Pattern) : Partial := { p with front := p.current, last := q }

end Partial

/-- Put pieces together; on the stack is what stands before the groups that are open. The groups
that were closed are listed, and `next` is the number of the next one. A bracket that closes no group
may stand for itself. -/
def assemble (isLenient : Bool) (now : Partial) (next : Nat) (closed : List Nat) :
    List Partial → List Piece → Except String Pattern
  | [], [] => .ok now.whole
  | _ :: _, [] => .error "Unmatched ( or \\("
  | stack, .unit q :: rest =>
    let isDangling := match q with
      | .back n => !closed.contains n
      | _ => false
    if isDangling then .error "Invalid back reference"
    else assemble isLenient (now.add q) next closed stack rest
  | stack, .times low high :: rest =>
    assemble isLenient { now with last := .many now.last low high } next closed stack rest
  | stack, .bar :: rest =>
    assemble isLenient { done := some now.whole, index := now.index } next closed stack rest
  | stack, .opening :: rest =>
    assemble isLenient { index := next } (next + 1) closed (now :: stack) rest
  | [], .closing :: rest =>
    if isLenient then assemble isLenient (now.add (char ')')) next closed [] rest
    else .error "Unmatched ) or \\)"
  | outer :: stack, .closing :: rest =>
    assemble isLenient (outer.add (.group now.index now.whole)) next (now.index :: closed) stack rest

/-- The pattern of a text in a notation, or why it is none. -/
def ofText (dialect : Dialect) (s : Chars) : Except String Pattern :=
  match dialect with
  | .fixed => .ok (s.foldr (fun c p => .both (char c) p) .empty)
  | .basic => (basicPieces (s.length + 1) none s).bind (assemble false {} 1 [] [])
  | .extended => (extendedPieces (s.length + 1) none s).bind (assemble true {} 1 [] [])

/-- Does a pattern have a group? -/
def hasGroup : Pattern → Bool
  | both p q | either p q => hasGroup p || hasGroup q
  | many p _ _ => hasGroup p
  | group .. => true
  | empty | one _ | place _ | back _ => false

end Pattern

end CommandExpr.Machine
