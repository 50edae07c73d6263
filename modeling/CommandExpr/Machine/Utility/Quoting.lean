import CommandExpr.Text.Latin

/-!
# Quoted text in messages

Messages show file names the way a shell would read them, and other texts between straight quotes
with backslashes.

## Main definitions

* `Quoting.quoted` — a file name between quotes
* `Quoting.named` — a file name, between quotes where a shell would need them
* `Quoting.cited` — any other text
-/

namespace CommandExpr.Machine.Quoting

/-- Does a character print? -/
def prints (c : Char) : Bool := ' ' ≤ c && c ≤ '~'

/-- The backslash escape of a character that does not print. -/
def escaped (c : Char) : List Char :=
  let letters := [(7, 'a'), (8, 'b'), (12, 'f'), (10, 'n'), (13, 'r'), (9, 't'), (11, 'v')]
  match letters.lookup c.toNat with
  | some letter => ['\\', letter]
  | none =>
    let digits := Nat.toDigits 8 c.toNat
    '\\' :: (List.replicate (3 - digits.length) '0' ++ digits)

/-- The characters that a shell reads in another way than they stand, wherever they are. -/
def special : List Char := " !\"$&()*;<=>?[\\^\x60|':".toList

/-- Does a shell read a text as it stands? -/
def isPlain (s : List Char) : Bool :=
  !s.isEmpty && s.all (fun c => prints c && !special.contains c)
    && !(s.head?.any fun c => c = '#' || c = '~') && s ≠ [Char.ofNat 123] && s ≠ [Char.ofNat 125]

/-- The characters that mean the same between double quotes as outside. -/
def isTame (c : Char) : Bool := c.isAlphanum || " %+,-./:]_@'".toList.contains c

/-- Text inside single quotes, and whether it is inside an escape. -/
def inside : Bool → List Char → List Char
  | _, [] => ['\'']
  | isEscape, c :: rest =>
    if !prints c then (if isEscape then [] else "'$'".toList) ++ escaped c ++ inside true rest
    else
      (if isEscape then "''".toList else [])
        ++ (if c = '\'' then "'\\''".toList else [c]) ++ inside false rest

/-- A text between quotes, as a shell would read it. -/
def quotedChars (s : List Char) : List Char :=
  if s.contains '\'' && s.all isTame then '"' :: s ++ ['"'] else '\'' :: inside false s

/-- A file name between quotes. -/
def quoted (s : Bytes) : Bytes := Latin.toBytes (quotedChars (Latin.ofBytes s))

/-- A file name, between quotes where a shell would need them. -/
def named (s : Bytes) : Bytes := if isPlain (Latin.ofBytes s) then s else quoted s

/-- A text as a shell reads it back, between quotes where it needs them. -/
def shellWord (s : Bytes) : Bytes :=
  if isPlain ((Latin.ofBytes s).filter (· ≠ ':')) then s else quoted s

/-- A text between straight quotes; quotes and backslashes in it are escaped. -/
def cited (s : Bytes) : Bytes :=
  let body := (Latin.ofBytes s).flatMap fun c =>
    if c = '\'' || c = '\\' then ['\\', c] else if prints c then [c] else escaped c
  Latin.toBytes ('\'' :: body ++ ['\''])

end CommandExpr.Machine.Quoting
