import CommandExpr.Bytes

/-!
# UTF-8

Reading bytes as text. A byte string is cut into well-formed characters and *stray* bytes, where a
stray run is a maximal part of a character's encoding that was broken off: the text shown for it is
one replacement character per run.

## Main definitions

* `Utf8.pieces` — the characters and stray runs of a byte string, in order; nothing is lost
* `Utf8.decode?` — the text, if no byte is stray
* `Utf8.decodeLossy` — the text with U+FFFD for every stray run
-/

namespace CommandExpr.Utf8

/-- One step of reading UTF-8. -/
inductive Piece where
  /-- A well-formed character. -/
  | char (c : Char)
  /-- Bytes that begin no well-formed character. -/
  | stray (bytes : Bytes)
  deriving DecidableEq

/-- A byte that continues a character: binary `10xxxxxx`. -/
def isContinuation (b : UInt8) : Bool := 0x80 ≤ b && b ≤ 0xBF

/-- The six payload bits of a continuation byte. -/
def payload (b : UInt8) : Nat := b.toNat % 64

/-- The bytes allowed second in a three-byte character: surrogates and overlong forms are kept out. -/
def isSecondOfThree (lead b : UInt8) : Bool :=
  if lead = 0xE0 then 0xA0 ≤ b && b ≤ 0xBF
  else if lead = 0xED then 0x80 ≤ b && b ≤ 0x9F
  else isContinuation b

/-- The bytes allowed second in a four-byte character: overlong forms and what lies past U+10FFFF
are kept out. -/
def isSecondOfFour (lead b : UInt8) : Bool :=
  if lead = 0xF0 then 0x90 ≤ b && b ≤ 0xBF
  else if lead = 0xF4 then 0x80 ≤ b && b ≤ 0x8F
  else isContinuation b

/-- What a character that starts with the byte `lead` and goes on with `rest` is, and how many bytes
of `rest` belong to it. A broken character takes the bytes up to the first one that cannot follow. -/
def step (lead : UInt8) (rest : Bytes) : Piece × Nat :=
  if lead < 0x80 then (.char (Char.ofNat lead.toNat), 0)
  else if 0xC2 ≤ lead && lead ≤ 0xDF then
    match rest with
    | b₁ :: _ =>
      if isContinuation b₁ then
        (.char (Char.ofNat (lead.toNat % 32 * 64 + payload b₁)), 1)
      else (.stray [lead], 0)
    | [] => (.stray [lead], 0)
  else if 0xE0 ≤ lead && lead ≤ 0xEF then
    match rest with
    | b₁ :: rest₁ =>
      if isSecondOfThree lead b₁ then
        match rest₁ with
        | b₂ :: _ =>
          if isContinuation b₂ then
            (.char (Char.ofNat ((lead.toNat % 16 * 64 + payload b₁) * 64 + payload b₂)), 2)
          else (.stray [lead, b₁], 1)
        | [] => (.stray [lead, b₁], 1)
      else (.stray [lead], 0)
    | [] => (.stray [lead], 0)
  else if 0xF0 ≤ lead && lead ≤ 0xF4 then
    match rest with
    | b₁ :: rest₁ =>
      if isSecondOfFour lead b₁ then
        match rest₁ with
        | b₂ :: rest₂ =>
          if isContinuation b₂ then
            match rest₂ with
            | b₃ :: _ =>
              if isContinuation b₃ then
                (.char (Char.ofNat
                  (((lead.toNat % 8 * 64 + payload b₁) * 64 + payload b₂) * 64 + payload b₃)), 3)
              else (.stray [lead, b₁, b₂], 2)
            | [] => (.stray [lead, b₁, b₂], 2)
          else (.stray [lead, b₁], 1)
        | [] => (.stray [lead, b₁], 1)
      else (.stray [lead], 0)
    | [] => (.stray [lead], 0)
  else (.stray [lead], 0)

/-- The characters and stray runs of a byte string, in order. -/
def pieces : Bytes → List Piece
  | [] => []
  | lead :: rest =>
    let (piece, taken) := step lead rest
    piece :: pieces (rest.drop taken)
termination_by s => s.length
decreasing_by simp only [List.length_drop, List.length_cons]; omega

/-- The character shown for a stray run. -/
def replacement : Char := '\uFFFD'

/-- The text of one piece. -/
def Piece.shown : Piece → Char
  | .char c => c
  | .stray _ => replacement

/-- The text of a byte string, with a replacement character for every stray run. -/
def decodeLossy (s : Bytes) : String :=
  String.ofList ((pieces s).map Piece.shown)

/-- The text of a byte string, if it is well-formed. -/
def decode? (s : Bytes) : Option String :=
  let chars? := (pieces s).mapM fun
    | .char c => some c
    | .stray _ => none
  chars?.map String.ofList

end CommandExpr.Utf8
